import Rendezvous.Proofs.Peer.Writing
import Rendezvous.Proofs.Relay.Answering
import Rendezvous.Proofs.Relay.Reception

/-!
# How an honest newcomer is admitted

A connection is opened, its peer keeps to the protocol, and the relay goes on with others between any two
steps: also the path may be taken out and created anew in the meantime. Then no step of the handshake
fails, and in the end the newcomer has an address, and its peer the server's answer.

Each stage of the handshake says what its step yields, and that the next stage follows whatever others
do in between (`IsGreeted`, `IsIntroduced`, `IsProved`, `IsDue`, `IsAnswered`). The stages are proved in
this order from an invariant (`Newcomer.Ready`): the two ends of the connection are ready for each other's
next frame.

There is one exception. Right after the greeting the server takes for an introduction whatever can be read
as one, and only then looks for a box. The box of an initiator's proof is 16 bytes of authenticator and a
text of which the initiator can choose a good part, so it can be such that it reads as an introduction:
the subprotocols of one that does stand at the end.
-/

namespace Rendezvous

open Relay (LeftAlone)

/-- A newcomer: how its connection is opened, its peer, and what its peer says. -/
structure Newcomer where
  role : Role
  /-- The key that names the path. -/
  path : PublicKey
  /-- The subprotocol that was agreed upon when the connection was opened. -/
  subprotocol : String
  draw : Relay.Draw
  keys : KeyPair
  cookie : Cookie
  number : SequenceNumber
  subprotocols : List String
  pingInterval : UInt32
  /-- The permanent key of the server that the peer expects, if it does. -/
  yourKey : Option PublicKey

namespace Newcomer

def peer (n : Newcomer) : Peer :=
  .new n.keys n.cookie n.number

/-- Its connection is accepted, after a run. -/
def arrival (n : Newcomer) (service : Service) (before : List Action) : ClientId × Relay :=
  ((Relay.new service).run before).accept n.path n.subprotocol n.draw

/-- The newcomer keeps to the protocol. It expects the permanent key `permanent`: it names that key, or it
takes the first one. -/
structure Honest (n : Newcomer) (service : Service) (permanent : KeyPair) : Prop where
  key : n.role = .initiator → n.keys.publicKey = n.path
  cookie : n.cookie ≠ n.draw.cookie
  number : n.number.overflow = 0
  drawn : n.draw.number.overflow = 0
  subprotocol : n.subprotocols.find? service.speaks = some n.subprotocol
  /-- A list that can be written. -/
  fits : n.subprotocols.length < 2 ^ 32 ∧
    ∀ subprotocol ∈ n.subprotocols, (Text.utf8 subprotocol).length < 2 ^ 32
  permanent : (n.yourKey = none ∧ service.primaryKey? = some permanent) ∨
    (n.yourKey = some permanent.publicKey ∧ permanent ∈ service.permanentKeys)

end Newcomer

/-- What a step puts into the channel of a client. -/
def Relay.Puts (r s : Relay) (id : ClientId) (items : List Outbound) : Prop :=
  ∃ c c', r.client? id = some c ∧ s.client? id = some c' ∧
    c'.outbox.items = c.outbox.items ++ items

/-! ## The stages of the handshake -/

namespace Newcomer

variable (n : Newcomer) (permanent : KeyPair) (id : ClientId)

/-- The pings that are asked for. -/
def pings : List Outbound :=
  if n.pingInterval = 0 then [] else [.keepAlive n.pingInterval.toNat]

/-- The newcomer is authenticated, on the live path of its key, at the initiator's address or at a
responder's that nobody had. -/
structure IsSeated (r s : Relay) (address : Address) : Prop where
  client : ∃ c, s.client? id = some c ∧ c.isAuthenticated = true ∧ c.role? = some n.role ∧
    c.id = address ∧ s.registry.live.lookup n.path = some c.path ∧
    (s.slots c.path).get address = some id
  initiator : n.role = .initiator → address = .initiator
  responder : n.role = .responder →
    address.isResponder = true ∧ (r.liveSlots n.path).get address = none

/-- The peer has the server's answer: its own cookie, who else is there, and a box that vouches for the
server's session. -/
structure HasAnswer (r : Relay) (p : Peer) (frame : Bytes) (address : Address) : Prop where
  answer : ∃ side signed nonce p',
    p.receive frame = (.ok (.answer ⟨n.cookie, side⟩ (some signed) nonce), p') ∧ p'.id = address ∧
    (r.liveSlots n.path).Describes n.role side ∧
    p'.verifySignedKeys permanent.publicKey nonce signed = true

/-- The job is run, and succeeds. -/
def IsAnswered (r : Relay) (p : Peer) : Prop :=
  ∃ s address frame, r.sendServerAuth id = (.ok (), s) ∧ r.runJob (.answer id) = s ∧
    n.IsSeated id r s address ∧ r.Puts s id (.binary frame :: n.pings) ∧
    n.HasAnswer permanent r p frame address

/-- The job that answers the newcomer waits, and wherever it is in the queue, it succeeds when it is run:
for a responder, as long as the path is not full. -/
def IsDue (r : Relay) (p : Peer) : Prop :=
  (∃ place jobs, r.jobs.takeAt place = some (.answer id, jobs)) ∧
    ∀ place jobs, r.jobs.takeAt place = some (.answer id, jobs) →
      (n.role = .responder → (r.liveSlots n.path).responders.length < 254) →
      n.IsAnswered permanent id { r with jobs := jobs } p

/-- The peer proves itself, and is admitted. The box of an initiator must not read as an introduction. -/
def IsProved (r : Relay) (p : Peer) : Prop :=
  ∃ auth p', p.clientAuth n.subprotocols n.pingInterval n.yourKey = .ok (auth, p') ∧
    ((n.role = .initiator → ∀ key, Message.read (auth.drop 24) ≠ .ok (.clientHello key)) →
      ∃ s, r.received id auth = (.ok (), s) ∧
        ∀ gap, LeftAlone id s gap → n.IsDue permanent id (s.run gap) p')

/-- A responder introduces itself first. -/
def IsIntroduced (r : Relay) (p : Peer) : Prop :=
  ∃ hello p' s, p.clientHello = .ok (hello, p') ∧ r.received id hello = (.ok (), s) ∧
    ∀ gap, LeftAlone id s gap → n.IsProved permanent id (s.run gap) p'

/-- The server introduces itself, of which the peer hears. -/
def IsGreeted (r : Relay) (p : Peer) : Prop :=
  ∃ s hello p', r.sendServerHello id = (.ok (), s) ∧ r.Puts s id [.binary hello] ∧
    p.receive hello = (.ok (.message (.serverHello n.draw.session.publicKey)), p') ∧
    ∀ gap, LeftAlone id s gap →
      match n.role with
      | .initiator => n.IsProved permanent id (s.run gap) p'
      | .responder => n.IsIntroduced permanent id (s.run gap) p'

end Newcomer

namespace Relay

variable {r : Relay} {id : ClientId} {c c₁ c' : Client}

/-- A change of a client that succeeds. -/
theorem update_ok {f : Client → Except ProtocolError Client} (hc : r.client? id = some c)
    (hf : f c = .ok c') : ∃ s, r.update id f = (.ok (), s) ∧ s.client? id = some c' := by
  refine ⟨r.setClient id c', by simp only [update, hc, hf], ?_⟩
  rw [client?_setClient, if_pos rfl, hc]
  rfl

/-- An introduction that is accepted. -/
theorem received_introduction {frame : Bytes} {key : PublicKey} (hc : r.client? id = some c)
    (hu : c.unpack frame = .ok (.clientHello key, c₁)) (hok : c₁.introduce key = .ok c') :
    ∃ s, r.received id frame = (.ok (), s) ∧ s.client? id = some c' := by
  obtain ⟨heq, hc₁⟩ := received_of_unpack hc hu
  rw [heq]
  exact update_ok hc₁ hok

/-- A proof that is accepted. Its answer is put off. -/
theorem received_proof {frame : Bytes} {auth : ClientAuth} (hc : r.client? id = some c)
    (hu : c.unpack frame = .ok (.clientAuth auth, c₁))
    (hok : c₁.authorize r.service auth = .ok c') :
    ∃ s, r.received id frame = (.ok (), s) ∧ s.client? id = some c' ∧
      .answer id ∈ s.jobs.pending := by
  obtain ⟨heq, hc₁⟩ := received_of_unpack hc hu
  obtain ⟨t, hupdate, hc'⟩ := update_ok (f := fun c => c.authorize r.service auth) hc₁ hok
  refine ⟨t.dispatch (.answer id), ?_, hc', List.mem_append_right _ (.head _)⟩
  rw [heq]
  show (r.setClient id c₁).handleClientAuth id auth = _
  unfold handleClientAuth
  rw [show (r.setClient id c₁).service = r.service from rfl, hupdate]

end Relay

/-! ## Ready for the next frame -/

namespace Newcomer

variable {n : Newcomer} {service : Service} {permanent : KeyPair} {id : ClientId} {r s : Relay}
  {c : Client} {p : Peer} {sent : Nat}

/-- The two ends of the connection are ready for each other's next frame, after each has sent no more than
a few. -/
structure Ready (n : Newcomer) (service : Service) (sent : Nat) (r : Relay) (id : ClientId) (c : Client)
    (p : Peer) : Prop where
  coherent : r.census.Coherent
  service : r.service = service
  client : r.client? id = some c
  stays : c.gone = false
  writer : c.outbox.isOpen = true
  opened : c.initiatorKey = n.path ∧ c.subprotocol = n.subprotocol ∧ c.session = n.draw.session ∧
    c.cookie = n.draw.cookie
  peer : p.keys = n.keys ∧ p.cookie = n.cookie
  numbers : c.nextNumber.combined < 0x100000000 + sent ∧ p.number.combined < 0x100000000 + sent
  awaits : c.Awaits p
  follows : p.Follows c
  heard : c.phase ≠ .fresh → p.serverCookie = some c.cookie

/-- Others do not disturb that. -/
theorem Ready.run {gap : List Action} (h : n.Ready service sent r id c p)
    (hauth : c.isAuthenticated = false) (hgap : LeftAlone id r gap) :
    ∃ outbox, n.Ready service sent (r.run gap) id { c with outbox := outbox } p := by
  obtain ⟨outbox, hclient, hopen⟩ := Relay.leftAlone_run h.coherent h.client hauth hgap
  have hrun : (r.run gap).census.Coherent ∧ (r.run gap).service = r.service :=
    Relay.run_induction (P := fun s => s.census.Coherent ∧ s.service = r.service) ⟨h.coherent, rfl⟩
      (fun s act hs => ⟨Relay.coherent_perform hs.1 act,
        (Relay.service_perform hs.1 act).trans hs.2⟩) gap
  exact ⟨outbox, hrun.1, hrun.2.trans h.service, hclient, h.stays, hopen.trans h.writer, h.opened,
    h.peer, h.numbers, ⟨h.awaits.id, h.awaits.header⟩, h.follows.congr rfl rfl rfl .rfl,
    h.heard⟩

/-- A step about the newcomer leaves the relay in order. -/
theorem Ready.step (h : n.Ready service sent r id c p) (act : Action) (hs : r.perform act = s) :
    s.census.Coherent ∧ s.service = service := by
  subst hs
  exact ⟨Relay.coherent_perform h.coherent act,
    (Relay.service_perform h.coherent act).trans h.service⟩

/-- Having sent no more than a few, they have sent no more than some more. -/
theorem Ready.mono {more : Nat} (h : n.Ready service sent r id c p) (hle : sent ≤ more) :
    n.Ready service more r id c p := by
  refine ⟨h.coherent, h.service, h.client, h.stays, h.writer, h.opened, h.peer, ⟨?_, ?_⟩, h.awaits,
    h.follows, h.heard⟩
  · have := h.numbers.1
    omega
  · have := h.numbers.2
    omega

/-- The server has a number for its next frame. -/
theorem Ready.isSentinel_number (h : n.Ready service sent r id c p) (hfew : sent ≤ 3) :
    c.nextNumber.isSentinel = false := by
  have := h.numbers.1
  rw [← Bool.not_eq_true, SequenceNumber.isSentinel_iff]
  omega

/-- The peer has a number for its next frame, and for one more. -/
theorem Ready.next_number (h : n.Ready service sent r id c p) (hfew : sent ≤ 3) :
    ∃ next, p.number.next = .ok next ∧ next.combined = p.number.combined + 1 := by
  refine SequenceNumber.next_of_combined_lt ?_
  have := h.numbers.2
  omega

/-- The server has taken a frame of the peer. -/
theorem Ready.wrote {next : SequenceNumber} {phase : Phase} (h : n.Ready service sent r id c p)
    (hcombined : next.combined = p.number.combined + 1)
    (hs : s.census.Coherent ∧ s.service = service)
    (hclient : s.client? id = some { c.after p next with phase := phase })
    (hstarted : c.phase ≠ .fresh) (hphase : phase ≠ .fresh)
    (hid : { c.after p next with phase := phase }.id = c.id) :
    n.Ready service (sent + 1) s id { c.after p next with phase := phase }
      { p with number := next } := by
  refine ⟨hs.1, hs.2, hclient, h.stays, h.writer, h.opened, h.peer, ⟨?_, ?_⟩,
    ⟨h.awaits.id.trans hid.symm, .inr rfl⟩,
    (h.follows.wrote next).congr rfl rfl rfl (iff_of_false hphase hstarted),
    fun _ => h.heard hstarted⟩
  · have := h.numbers.1
    show c.nextNumber.combined < _
    omega
  · have := h.numbers.2
    show next.combined < _
    omega

/-- A connection that was just opened. -/
theorem ready_accept (hn : n.Honest service permanent) (before : List Action) :
    ∃ c, n.Ready service 0 (n.arrival service before).2 (n.arrival service before).1 c n.peer ∧
      c.phase = .fresh := by
  have hr := Relay.coherent_run service before
  have hperform := Relay.coherent_perform hr (.accept n.path n.subprotocol n.draw)
  have hservice := (Relay.service_perform hr (.accept n.path n.subprotocol n.draw)).trans
    (Relay.service_run service before)
  have hclient := Relay.client?_accept ((Relay.new service).run before) n.path n.subprotocol n.draw
    ⟨((Relay.new service).run before).clients.size⟩
  rw [if_pos rfl] at hclient
  exact ⟨_, ⟨hperform, hservice, hclient, rfl, rfl, ⟨rfl, rfl, rfl, rfl⟩, ⟨rfl, rfl⟩,
    ⟨SequenceNumber.combined_of_overflow hn.drawn, SequenceNumber.combined_of_overflow hn.number⟩,
    ⟨rfl, .inl ⟨rfl, hn.cookie, hn.number⟩⟩, ⟨nofun, nofun, rfl⟩, fun hstarted => absurd rfl hstarted⟩,
    rfl⟩

/-! ## Steps of the handshake -/

/-- **The greeting** is sent, and the peer learns the session's key from it. -/
theorem Ready.greet (h : n.Ready service 0 r id c p) (hphase : c.phase = .fresh) :
    ∃ s hello p' c', r.sendServerHello id = (.ok (), s) ∧ r.Puts s id [.binary hello] ∧
      p.receive hello = (.ok (.message (.serverHello c.session.publicKey)), p') ∧
      n.Ready service 1 s id c' p' ∧ c'.phase = .greeted := by
  have hnumber := h.isSentinel_number (Nat.zero_le 3)
  obtain ⟨⟨hello, c₁⟩, hpack⟩ : ∃ packed, c.pack .server (.serverHello c.session.publicKey) =
    .ok packed := Client.pack_ok hnumber nofun
  have hspoken : (Message.serverHello c.session.publicKey).Spoken :=
    ⟨trivial, trivial, .serverHello, by decide, rfl⟩
  have hturn : c.MaySay (.serverHello c.session.publicKey) := .inl ⟨hphase, rfl⟩
  obtain ⟨signed, -, hreceive⟩ := Peer.receive_pack h.follows
    (fun key hkey => by rw [hphase] at hkey; cases hkey) hspoken hpack hturn
  obtain ⟨next, hnext, rfl⟩ := Client.eq_of_pack hpack
  have hgreeted : c.greet = .ok ({ c with nextNumber := next, phase := .greeted }.push
      (.binary hello)) := Client.greet_eq_ok.mpr ⟨hphase, hello, _, hpack, rfl⟩
  obtain ⟨s, hgreet, hclient⟩ := Relay.update_ok h.client hgreeted
  replace hgreet : r.sendServerHello id = (.ok (), s) := hgreet
  obtain ⟨hcoherent, hservice⟩ := h.step (.greet id) (congrArg Prod.snd hgreet)
  refine ⟨s, hello, _, _, hgreet, ⟨c, _, h.client, hclient, Outbox.items_push _ _ h.writer⟩, hreceive,
    ⟨hcoherent, hservice, hclient, h.stays, (Outbox.isOpen_push ..).trans h.writer, h.opened, h.peer,
      ⟨?_, ?_⟩, ⟨?_, h.awaits.header⟩, ?_, fun _ => rfl⟩, rfl⟩
  · have := h.numbers.1
    show next.combined < _
    rw [SequenceNumber.combined_of_next hnext]
    omega
  · have := h.numbers.2
    show p.number.combined < _
    omega
  · exact h.awaits.id.trans (by rw [Client.id, hphase]; rfl)
  · exact Peer.follows_note ({ c with nextNumber := next, phase := .greeted }.push (.binary hello))
      h.follows hturn rfl rfl Phase.noConfusion _

/-- **The introduction** of a responder is heard. -/
theorem Ready.introduce (h : n.Ready service 1 r id c p) (hphase : c.phase = .greeted) :
    ∃ hello p' s c', p.clientHello = .ok (hello, p') ∧ r.received id hello = (.ok (), s) ∧
      n.Ready service 2 s id c' p' ∧ c'.phase = .introduced n.keys.publicKey := by
  have hstarted : c.phase ≠ .fresh := by
    rw [hphase]
    exact Phase.noConfusion
  obtain ⟨next, hnext, hcombined⟩ := h.next_number (by decide)
  obtain ⟨hello, hwritten, hread⟩ := h.awaits.unpack_clientHello hnext hphase
  rw [h.peer.1] at hread
  have hintroduce : (c.after p next).introduce n.keys.publicKey =
      .ok { c.after p next with phase := .introduced n.keys.publicKey } :=
    Client.introduce_eq_ok.mpr ⟨hphase, rfl⟩
  obtain ⟨s, hreceived, hclient⟩ := Relay.received_introduction h.client hread hintroduce
  have hs := h.step (.receive id hello) (congrArg Prod.snd hreceived)
  have hid : c.id = .server := by
    rw [Client.id, hphase]
    rfl
  exact ⟨hello, _, s, _, hwritten, hreceived,
    h.wrote hcombined hs hclient hstarted Phase.noConfusion hid.symm, rfl⟩

/-- The key that the newcomer expects is one that the relay has. -/
theorem Honest.keyFor (hn : n.Honest service permanent) :
    ∃ pair ∈ service.permanentKeys, service.keyFor n.yourKey = .ok pair ∧
      permanent.publicKey.samePoint pair.publicKey = true := by
  rcases hn.permanent with ⟨hnone, hprimary⟩ | ⟨hkey, hmem⟩
  · refine ⟨permanent, List.mem_of_mem_head? hprimary, ?_, PublicKey.samePoint_self _⟩
    rw [hnone, Service.keyFor, hprimary]
  · obtain ⟨pair, hpair⟩ : ∃ pair, service.findKey? permanent.publicKey = some pair := by
      refine Option.isSome_iff_exists.mp (List.find?_isSome.mpr ⟨permanent, hmem, ?_⟩)
      exact PublicKey.samePoint_self _
    have hfound : service.keyFor n.yourKey = .ok pair := by
      rw [hkey, Service.keyFor, hpair]
    obtain ⟨hpairs, hsame⟩ := Service.mem_of_keyFor (hkey ▸ hfound)
    refine ⟨pair, hpairs, hfound, ?_⟩
    unfold PublicKey.samePoint at hsame ⊢
    exact beq_iff_eq.mpr (beq_iff_eq.mp hsame).symm

/-- A proof that was read is accepted. -/
theorem Ready.authorize {pair : KeyPair} (hn : n.Honest service permanent)
    (h : n.Ready service sent r id c p) (hclaimed : c.claimed? = some (n.role, n.keys.publicKey))
    (hpair : service.keyFor n.yourKey = .ok pair) (next : SequenceNumber) :
    (c.after p next).authorize service ⟨c.cookie, n.subprotocols, n.pingInterval, n.yourKey⟩ =
      .ok { c.after p next with
        phase := .admitted ⟨n.role, n.keys.publicKey, pair, n.pingInterval⟩ } := by
  refine Client.authorize_eq_ok.mpr ⟨_, _, pair, hclaimed, rfl, ?_, hpair, rfl⟩
  show _ = some c.subprotocol
  rw [h.opened.2.1]
  exact hn.subprotocol

/-- **The proof** is accepted, unless it is taken for an introduction, and the answer is put off. -/
theorem Ready.prove (hn : n.Honest service permanent) (h : n.Ready service 2 r id c p)
    (hagrees : n.keys.Agrees n.draw.session)
    (hclaimed : c.claimed? = some (n.role, n.keys.publicKey)) :
    ∃ auth p', p.clientAuth n.subprotocols n.pingInterval n.yourKey = .ok (auth, p') ∧
      ((n.role = .initiator → ∀ key, Message.read (auth.drop 24) ≠ .ok (.clientHello key)) →
        ∃ s pair c' e, r.received id auth = (.ok (), s) ∧ .answer id ∈ s.jobs.pending ∧
          n.Ready service 3 s id c' p' ∧ pair ∈ service.permanentKeys ∧
          permanent.publicKey.samePoint pair.publicKey = true ∧
          c'.phase = .admitted ⟨n.role, n.keys.publicKey, pair, n.pingInterval⟩ ∧
          c'.expected = some e ∧ e.cookie = n.cookie) := by
  obtain ⟨pair, hmem, hpair, hsame⟩ := hn.keyFor
  obtain ⟨hstarted, hauth⟩ := Client.phase_of_claimed hclaimed
  obtain ⟨next, hnext, hcombined⟩ := h.next_number (by decide)
  have hserver : p.serverKey = some c.session.publicKey := by
    rw [h.follows.serverKey, if_neg hstarted]
  have hsealing : p.keys.Agrees c.session := by
    rw [h.peer.1, h.opened.2.2.1]
    exact hagrees
  have hkey : c.peerKey = p.keys.publicKey := by
    rw [h.peer.1, Client.peerKey]
    rcases Client.claimed?_eq_some.mp hclaimed with ⟨hphase, -, hpath⟩ | ⟨hphase, -⟩
    · rw [hphase, hpath]
      rfl
    · rw [hphase]
      rfl
  have hfits : (Message.clientAuth ⟨c.cookie, n.subprotocols, n.pingInterval, n.yourKey⟩).Fits :=
    hn.fits
  obtain ⟨auth, hwritten, hread⟩ := h.awaits.unpack_clientAuth hnext (h.heard hstarted) hserver
    hsealing hkey hfits
  refine ⟨auth, _, hwritten, fun hsecret => ?_⟩
  have hunpack := hread fun hphase key => by
    refine hsecret ?_ key
    rcases Client.claimed?_eq_some.mp hclaimed with ⟨-, hrole, -⟩ | ⟨hintroduced, -⟩
    · exact hrole
    · cases hphase.symm.trans hintroduced
  have hauthorize := h.authorize hn hclaimed hpair next
  rw [← h.service] at hauthorize
  obtain ⟨s, hreceived, hclient, hjob⟩ := Relay.received_proof h.client hunpack hauthorize
  have hs := h.step (.receive id auth) (congrArg Prod.snd hreceived)
  have hid : c.id = .server := by
    rcases Client.claimed?_eq_some.mp hclaimed with ⟨hphase, -⟩ | ⟨hphase, -⟩ <;>
      rw [Client.id, hphase] <;> rfl
  exact ⟨s, pair, _, ⟨p.cookie, next⟩, hreceived, hjob,
    h.wrote hcombined hs hclient hstarted Phase.noConfusion hid.symm, hmem, hsame, rfl, rfl, h.peer.2⟩

/-- The peer reads the answer that was packed for it. -/
theorem Ready.hears {pair : KeyPair} {e : Expectation} {path : PathId} {address : Address}
    {side : OtherSide} {frame : Bytes} {c₁ : Client} (h : n.Ready service sent r id c p)
    (hagrees : n.keys.Agrees n.draw.session) (hpermanent : n.keys.Agrees pair)
    (hsame : permanent.publicKey.samePoint pair.publicKey = true)
    (hphase : c.phase = .admitted ⟨n.role, n.keys.publicKey, pair, n.pingInterval⟩)
    (hcookie : e.cookie = n.cookie) (hside : (r.liveSlots n.path).Describes n.role side)
    (hpack : { c with path := path }.pack address (.serverAuth ⟨e.cookie, side⟩) = .ok (frame, c₁)) :
    n.HasAnswer permanent r p frame address := by
  have hstarted : c.phase ≠ .fresh := by
    rw [hphase]
    exact Phase.noConfusion
  have hspoken : (Message.serverAuth ⟨e.cookie, side⟩).Spoken := by
    refine Message.spoken_serverAuth fun ids hids => ?_
    replace hids : side = .responders ids := hids
    rw [hids] at hside
    have := hside.length_le
    omega
  have hopens : p.Opens c := by
    rw [Peer.Opens, hphase, h.peer.1, h.opened.2.2.1]
    rintro key ⟨⟩ nonce plain
    exact hagrees.opens (PublicKey.samePoint_self _) nonce plain
  obtain ⟨signed, hsigned, hreceive⟩ := Peer.receive_pack (c := { c with path := path })
    (h.follows.congr rfl rfl rfl .rfl) hopens hspoken hpack (.inr ⟨hstarted, rfl⟩)
  have hbox : signed = some (Box.signKeys n.keys.publicKey c.session.publicKey pair.secretKey
      ({ c with path := path }.nextHeader address).nonce) := by
    unfold Message.signedKeys Client.sealing at hsigned
    dsimp only at hsigned
    rw [hphase] at hsigned
    cases hsigned
    rfl
  subst hbox
  rw [hcookie] at hreceive
  refine ⟨side, _, _, _, hreceive, rfl, hside, ?_⟩
  have hserver : p.serverKey = some c.session.publicKey := by
    rw [h.follows.serverKey, if_neg hstarted]
  exact Peer.verifySignedKeys_signKeys (p := _) h.peer.1 hserver hpermanent hsame _

/-- **The answer** is sent, and the peer learns from it who else is there, and that the session belongs to
the holder of the permanent key that it expects. -/
theorem Ready.answer {pair : KeyPair} {e : Expectation} (h : n.Ready service 3 r id c p)
    (hagrees : n.keys.Agrees n.draw.session)
    (hpermanent : n.keys.Agrees pair) (hsame : permanent.publicKey.samePoint pair.publicKey = true)
    (hphase : c.phase = .admitted ⟨n.role, n.keys.publicKey, pair, n.pingInterval⟩)
    (hexpected : c.expected = some e) (hcookie : e.cookie = n.cookie)
    (hroom : n.role = .responder → (r.liveSlots n.path).responders.length < 254) :
    n.IsAnswered permanent id r p := by
  obtain ⟨hpath, -, hsession, -⟩ := h.opened
  have hnumber := h.isSentinel_number le_rfl
  rw [← hpath] at hroom
  obtain ⟨address, side, frame, c₁, s, hanswer, hkind, hfree, hlookup, hslot, hside, hpack, hclient⟩ :=
    Relay.sendServerAuth_ok h.coherent h.client h.stays hphase hexpected hnumber hroom
  rw [hpath] at hlookup hside hfree
  have hjob : r.runJob (.answer id) = s := by simp only [Relay.runJob, hanswer]
  obtain ⟨next, -, rfl⟩ := Client.eq_of_pack hpack
  obtain ⟨outbox, hseated⟩ := Relay.seated_eq
    { c with path := (r.livePath c).1, nextNumber := next }
    ⟨n.role, n.keys.publicKey, pair, n.pingInterval⟩ address frame
  refine ⟨s, address, frame, hanswer, hjob, ⟨⟨_, hclient, ?_⟩, fun hrole => ?_, fun hrole => ?_⟩,
    ⟨c, _, h.client, hclient, ?_⟩, ?_⟩
  · rw [hseated]
    exact ⟨rfl, rfl, rfl, hlookup, hslot⟩
  · rw [hrole] at hkind
    exact Address.eq_initiator hkind
  · refine ⟨(Address.isResponder_iff address).mpr ?_, hfree hrole⟩
    rw [hkind, hrole]
    rfl
  · exact Relay.items_seated (c := { c with path := (r.livePath c).1, nextNumber := next }) h.writer
      ..
  · exact h.hears hagrees hpermanent hsame hphase hcookie hside hpack

/-! ## The whole handshake -/

theorem Ready.isDue {pair : KeyPair} {e : Expectation} (h : n.Ready service 3 r id c p)
    (hagrees : n.keys.Agrees n.draw.session)
    (hpermanent : n.keys.Agrees pair) (hsame : permanent.publicKey.samePoint pair.publicKey = true)
    (hphase : c.phase = .admitted ⟨n.role, n.keys.publicKey, pair, n.pingInterval⟩)
    (hexpected : c.expected = some e) (hcookie : e.cookie = n.cookie)
    (hjob : .answer id ∈ r.jobs.pending) : n.IsDue permanent id r p := by
  refine ⟨Relay.takeAt_of_mem hjob, fun place jobs htaken hroom => ?_⟩
  have hready : n.Ready service 3 { r with jobs := jobs } id c p :=
    ⟨h.coherent, h.service, h.client, h.stays, h.writer, h.opened, h.peer, h.numbers, h.awaits,
      h.follows, h.heard⟩
  exact hready.answer hagrees hpermanent hsame hphase hexpected hcookie hroom

theorem Ready.isProved (hn : n.Honest service permanent) (h : n.Ready service 2 r id c p)
    (hagrees : n.keys.Agrees n.draw.session)
    (hpermanent : ∀ pair ∈ service.permanentKeys, n.keys.Agrees pair)
    (hclaimed : c.claimed? = some (n.role, n.keys.publicKey)) : n.IsProved permanent id r p := by
  obtain ⟨auth, p', hwritten, hproved⟩ := h.prove hn hagrees hclaimed
  refine ⟨auth, p', hwritten, fun hsecret => ?_⟩
  obtain ⟨s, pair, c', e, hreceived, hjob, hready, hmem, hsame, hphase, hexpected, hcookie⟩ :=
    hproved hsecret
  refine ⟨s, hreceived, fun gap hgap => ?_⟩
  obtain ⟨outbox, hready⟩ := hready.run (by rw [Client.isAuthenticated, hphase]; rfl) hgap
  exact hready.isDue hagrees (hpermanent pair hmem) hsame hphase hexpected hcookie
    (Relay.mem_pending_run hjob hgap)

theorem Ready.isIntroduced (hn : n.Honest service permanent) (h : n.Ready service 1 r id c p)
    (hrole : n.role = .responder) (hagrees : n.keys.Agrees n.draw.session)
    (hpermanent : ∀ pair ∈ service.permanentKeys, n.keys.Agrees pair)
    (hphase : c.phase = .greeted) : n.IsIntroduced permanent id r p := by
  obtain ⟨hello, p', s, c', hwritten, hreceived, hready, hintroduced⟩ := h.introduce hphase
  refine ⟨hello, p', s, hwritten, hreceived, fun gap hgap => ?_⟩
  obtain ⟨outbox, hready⟩ := hready.run (by rw [Client.isAuthenticated, hintroduced]; rfl) hgap
  refine hready.isProved hn hagrees hpermanent (Client.claimed?_eq_some.mpr (.inr ⟨hintroduced, hrole⟩))

theorem Ready.isGreeted (hn : n.Honest service permanent) (h : n.Ready service 0 r id c p)
    (hagrees : n.keys.Agrees n.draw.session)
    (hpermanent : ∀ pair ∈ service.permanentKeys, n.keys.Agrees pair) (hphase : c.phase = .fresh) :
    n.IsGreeted permanent id r p := by
  obtain ⟨s, hello, p', c', hgreet, hputs, hreceive, hready, hgreeted⟩ := h.greet hphase
  rw [h.opened.2.2.1] at hreceive
  refine ⟨s, hello, p', hgreet, hputs, hreceive, fun gap hgap => ?_⟩
  obtain ⟨outbox, hready⟩ := hready.run (by rw [Client.isAuthenticated, hgreeted]; rfl) hgap
  cases hrole : n.role with
  | initiator =>
    refine (hready.mono (Nat.le_succ 1)).isProved hn hagrees hpermanent
      (Client.claimed?_eq_some.mpr (.inl ⟨hgreeted, hrole, ?_⟩))
    exact (hn.key hrole).trans hready.opened.1.symm
  | responder => exact hready.isIntroduced hn hrole hagrees hpermanent hgreeted

end Newcomer

/-- **An honest newcomer is admitted**, after whatever run its connection is opened, and whatever others
do between the steps of its handshake. The peer's own steps succeed as well as the relay's. It is assumed
that the peer and the server derive the same keys for their boxes. -/
theorem Relay.handshake_run (service : Service) (before gap : List Action) (n : Newcomer)
    (permanent : KeyPair) (hn : n.Honest service permanent) (hagrees : n.keys.Agrees n.draw.session)
    (hpermanent : ∀ pair ∈ service.permanentKeys, n.keys.Agrees pair)
    (hgap : LeftAlone (n.arrival service before).1 (n.arrival service before).2 gap) :
    n.IsGreeted permanent (n.arrival service before).1 ((n.arrival service before).2.run gap)
      n.peer := by
  obtain ⟨c, hready, hphase⟩ := Newcomer.ready_accept hn before
  obtain ⟨outbox, hready⟩ := hready.run (by rw [Client.isAuthenticated, hphase]; rfl) hgap
  exact hready.isGreeted hn hagrees hpermanent hphase

namespace Newcomer

/-- The service that the newcomers below come to. -/
def host : Service := ⟨["v1.saltyrtc.org"], [Relay.Displaced.pair 24]⟩

/-- What it draws for their connections. -/
def drawn : Relay.Draw := ⟨Relay.Displaced.pair 16, ⟨Octets.fit [3]⟩, ⟨0, 0⟩⟩

/-- A responder who comes to the path of an initiator. -/
def latecomer : Newcomer where
  role := .responder
  path := (Relay.Displaced.pair 1).publicKey
  subprotocol := "v1.saltyrtc.org"
  draw := drawn
  keys := Relay.Displaced.pair 8
  cookie := ⟨Octets.fit [4]⟩
  number := ⟨0, 0⟩
  subprotocols := ["v0.saltyrtc.org", "v1.saltyrtc.org"]
  pingInterval := 30
  yourKey := some (Relay.Displaced.pair 24).publicKey

theorem agrees_drawn : (Relay.Displaced.pair 8).Agrees drawn.session :=
  .of_multiply (by decide +kernel)

theorem agrees_host (pair : KeyPair) (h : pair ∈ host.permanentKeys) :
    (Relay.Displaced.pair 8).Agrees pair := by
  rw [List.mem_singleton.mp h]
  exact .of_multiply (by decide +kernel)

end Newcomer

/-- An initiator has come as well. It leaves while the responder shakes hands, and the path is taken out. -/
theorem Relay.handshake_run_latecomer :
    Newcomer.latecomer.Honest Newcomer.host (Displaced.pair 24) ∧
    Newcomer.latecomer.keys.Agrees Newcomer.latecomer.draw.session ∧
    (∀ pair ∈ Newcomer.host.permanentKeys, Newcomer.latecomer.keys.Agrees pair) ∧
    LeftAlone (Newcomer.latecomer.arrival Newcomer.host [Displaced.connect]).1
      (Newcomer.latecomer.arrival Newcomer.host [Displaced.connect]).2 [.disconnect ⟨0⟩] ∧
    Newcomer.latecomer.IsGreeted (Displaced.pair 24)
      (Newcomer.latecomer.arrival Newcomer.host [Displaced.connect]).1
      ((Newcomer.latecomer.arrival Newcomer.host [Displaced.connect]).2.run [.disconnect ⟨0⟩])
      Newcomer.latecomer.peer := by
  have hn : Newcomer.latecomer.Honest Newcomer.host (Displaced.pair 24) :=
    ⟨nofun, by decide +kernel, rfl, rfl, by decide +kernel, by decide +kernel,
      .inr ⟨rfl, List.mem_singleton.mpr rfl⟩⟩
  have hgap : LeftAlone (Newcomer.latecomer.arrival Newcomer.host [Displaced.connect]).1
      (Newcomer.latecomer.arrival Newcomer.host [Displaced.connect]).2 [.disconnect ⟨0⟩] :=
    ⟨.inl (by decide +kernel), trivial⟩
  exact ⟨hn, Newcomer.agrees_drawn, Newcomer.agrees_host, hgap,
    handshake_run Newcomer.host [Displaced.connect] [.disconnect ⟨0⟩] Newcomer.latecomer
      (Displaced.pair 24) hn Newcomer.agrees_drawn Newcomer.agrees_host hgap⟩

namespace Newcomer

/-- An initiator whose proof happens to read as an introduction: the second subprotocol is so chosen that
the box begins as the introduction does. -/
def lookalike : Newcomer where
  role := .initiator
  path := (Relay.Displaced.pair 8).publicKey
  subprotocol := "v1.saltyrtc.org"
  draw := drawn
  keys := Relay.Displaced.pair 8
  cookie := ⟨Octets.fit [4]⟩
  number := ⟨0, 6162102⟩
  subprotocols := ["v1.saltyrtc.org", "Eby6v5:|NUR44d5cxVhb~;L8aspm4G7Vre9I0oD6V1vrORcmn0iSHkp"]
  pingInterval := 0
  yourKey := none

/-- The peer hears the greeting and proves itself. The server takes that for an introduction, puts off no
answer and has none to give. -/
theorem lookalike_introduced :
    (match (lookalike.arrival host []).2.sendServerHello ⟨0⟩ with
    | (.ok (), s) => (s.client? ⟨0⟩).any fun c => match c.outbox.items with
      | [.binary hello] => match lookalike.peer.receive hello with
        | (.ok _, p) => match p.clientAuth lookalike.subprotocols lookalike.pingInterval
            lookalike.yourKey with
          | .ok (auth, _) => match s.received ⟨0⟩ auth with
            | (.ok (), t) => t.jobs.pending == [] && !(t.sendServerAuth ⟨0⟩).1.isOk &&
              (t.client? ⟨0⟩).any fun c => match c.phase with
                | .introduced key => key != lookalike.keys.publicKey
                | _ => false
            | _ => false
          | _ => false
        | _ => false
      | _ => false
    | _ => false) = true := by
  decide +kernel

end Newcomer

/-- **An honest initiator can be turned away**: a box reads as an introduction, so the key in it is taken
for the key of a responder, and the initiator is never answered. -/
theorem Relay.taken_for_introduction :
    Newcomer.lookalike.Honest Newcomer.host (Displaced.pair 24) ∧
    Newcomer.lookalike.keys.Agrees Newcomer.lookalike.draw.session ∧
    (∀ pair ∈ Newcomer.host.permanentKeys, Newcomer.lookalike.keys.Agrees pair) ∧
    ∃ s c hello heard p auth p' t d key,
      (Newcomer.lookalike.arrival Newcomer.host []).2.sendServerHello ⟨0⟩ = (.ok (), s) ∧
      s.client? ⟨0⟩ = some c ∧ c.outbox.items = [.binary hello] ∧
      Newcomer.lookalike.peer.receive hello = (.ok heard, p) ∧
      p.clientAuth Newcomer.lookalike.subprotocols Newcomer.lookalike.pingInterval
        Newcomer.lookalike.yourKey = .ok (auth, p') ∧
      s.received ⟨0⟩ auth = (.ok (), t) ∧ t.client? ⟨0⟩ = some d ∧ d.phase = .introduced key ∧
      key ≠ Newcomer.lookalike.keys.publicKey ∧ t.jobs.pending = [] ∧
      (t.sendServerAuth ⟨0⟩).1 ≠ .ok () := by
  refine ⟨⟨fun _ => rfl, by decide +kernel, rfl, rfl, by decide +kernel, by decide +kernel,
    .inl ⟨rfl, rfl⟩⟩, Newcomer.agrees_drawn, Newcomer.agrees_host, ?_⟩
  have h := Newcomer.lookalike_introduced
  -- Whatever fails on the way makes the check fail.
  split at h
  case h_2 => cases h
  rename_i s hgreet
  obtain ⟨c, hc, h⟩ := (Option.any_eq_true _ _).mp h
  split at h
  case h_2 => cases h
  rename_i hello hitems
  split at h
  case h_2 => cases h
  rename_i heard p hhear
  split at h
  case h_2 => cases h
  rename_i auth p' hwrite
  split at h
  case h_2 => cases h
  rename_i t hreceive
  rw [Bool.and_eq_true, Bool.and_eq_true, beq_iff_eq] at h
  obtain ⟨⟨hjobs, hanswer⟩, h⟩ := h
  obtain ⟨d, hd, h⟩ := (Option.any_eq_true _ _).mp h
  split at h
  case h_2 => cases h
  rename_i key hphase
  refine ⟨s, c, hello, heard, p, auth, p', t, d, key, hgreet, hc, hitems, hhear, hwrite, hreceive,
    hd, hphase, bne_iff_ne.mp h, hjobs, fun hok => ?_⟩
  rw [hok] at hanswer
  cases hanswer

end Rendezvous
