import Rendezvous.Proofs.Relay.Acceptance
import Rendezvous.Proofs.Relay.Nonces
import Rendezvous.Proofs.Relay.Views

/-!
# What becomes of a frame to another client

A frame that a client sends to the other side of its path is ignored, relayed, refused, or, when there is no
number left to refuse it with, ends the sender's connection. Which of these it is depends on three questions
alone, asked in this order: whether the sender has its address, whether somebody with a writer has the
destination, and whether the sender's connection has numbers left. So nothing is both relayed and refused,
and nothing is lost in silence but what comes from a client without its address.

Whether the destination has a writer is found out in two ways: by handing the frame to the writer, or, while
notices wait in the inbox, by asking for it after the frame was put behind them. In the second way a frame can
stay behind in the inbox of somebody who has no writer any more; nobody will ever read it there.

* **`Relay.Reaches`** — somebody with a writer has an address.
* **`Relay.Relayed`**, **`Relay.Refused`**, **`Relay.Exhausted`** — what a relay is after a frame was relayed,
  refused, or could not even be refused.
* **`raw_run`** — every frame to another client has exactly one of these outcomes, or none, in every run.
-/

namespace Rendezvous

/-- A frame is the server's next one to a client, and holds, sealed, that the frame of the given name was not
delivered. -/
def Client.SealsError (c : Client) (name reply : Bytes) : Prop :=
  ∃ (header : Octets 24) (key : PublicKey) (frameId : FrameId), frameId.toList = name ∧
    c.phase.clientKey? = some key ∧ Header.ofOctets header = ⟨c.cookie, .server, c.id, c.nextNumber⟩ ∧
    reply = header.toList ++
      Box.encrypt key c.session.secretKey header ((Message.sendError frameId).plain none)

namespace Relay

variable {r s : Relay} {id d : ClientId} {c c' peer : Client} {path : PathId} {a : Address} {h : Header}
  {frame bytes : Bytes}

/-- Somebody with a writer has an address. -/
def Reaches (r : Relay) (path : PathId) (a : Address) (d : ClientId) (peer : Client) : Prop :=
  (r.slots path).get a = some d ∧ r.client? d = some peer ∧ peer.outbox.isOpen = true

/-- A frame was relayed to a client: it is queued, or waits behind what is still in the inbox. It is counted,
and nothing else is new, for its sender either. -/
structure Relayed (r : Relay) (d : ClientId) (peer : Client) (frame : Bytes) (s : Relay) : Prop where
  queued : peer.inbox = [] →
    s.client? d = some { peer with outbox := ⟨peer.outbox.items ++ [.binary frame], true⟩ }
  waits : peer.inbox ≠ [] → s.client? d = some { peer with inbox := peer.inbox ++ [.relayed frame] }
  others : ∀ other, other ≠ d → s.client? other = r.client? other
  rest : s = { r with
    clients := s.clients
    metrics := { r.metrics with
      relayedMessages := r.metrics.relayedMessages + 1
      relayedBytes := r.metrics.relayedBytes + UInt64.ofNat frame.length } }

/-- A frame to an address did not reach a client: the client is as it was, or the frame waits in its inbox
for a writer that is gone. -/
def Misses (r : Relay) (path : PathId) (a : Address) (frame : Bytes) (s : Relay) (other : ClientId) : Prop :=
  s.client? other = r.client? other ∨
  ∃ o, (r.slots path).get a = some other ∧ r.client? other = some o ∧ o.outbox.isOpen = false ∧
    s.client? other = some { o with inbox := o.inbox ++ [.relayed frame] }

/-- A frame was refused: its sender gets one sealed error, which names the frame by its bytes 16 to 23, and the
refusal is counted. -/
structure Refused (r : Relay) (id : ClientId) (c : Client) (a : Address) (frame : Bytes) (s : Relay) :
    Prop where
  sender : ∃ reply next, c.SealsError ((frame.drop 16).take 8) reply ∧
    next.combined = c.nextNumber.combined + 1 ∧
    s.client? id = some { c with nextNumber := next, outbox := c.outbox.push (.binary reply) }
  others : ∀ other, other ≠ id → r.Misses c.path a frame s other
  rest : s = { r with
    clients := s.clients
    metrics := { r.metrics with sendErrors := r.metrics.sendErrors + 1 } }

/-- A frame could not even be refused: neither its sender nor any counter shows it. -/
structure Exhausted (r : Relay) (id : ClientId) (c : Client) (a : Address) (frame : Bytes) (s : Relay) :
    Prop where
  sender : s.client? id = some c
  others : ∀ other, other ≠ id → r.Misses c.path a frame s other
  rest : s = { r with clients := s.clients }

/-! ## Passing on -/

theorem passOn_of_reaches (frame : Bytes) (hreach : r.Reaches path h.destination d peer) :
    r.passOn path h frame = (true, r.setClient d
      (if peer.inbox.isEmpty then peer.push (.binary frame)
        else { peer with inbox := peer.inbox ++ [.relayed frame] })) := by
  obtain ⟨hslot, hd, hopen⟩ := hreach
  simp only [passOn, hslot, forward, hd, hopen]

/-- Where nobody with a writer has the destination, all that happens is that a frame is left in an inbox. -/
theorem passOn_of_not_reaches (frame : Bytes)
    (hreach : ∀ d peer, ¬ r.Reaches path h.destination d peer) :
    ∃ s, r.passOn path h frame = (false, s) ∧ s = { r with clients := s.clients } ∧
      (∀ other, (r.slots path).get h.destination ≠ some other → s.client? other = r.client? other) ∧
      ∀ other, r.Misses path h.destination frame s other := by
  unfold passOn
  cases hslot : (r.slots path).get h.destination with
  | none => exact ⟨r, rfl, rfl, fun _ _ => rfl, fun _ => .inl rfl⟩
  | some d =>
    dsimp only [forward]
    cases hd : r.client? d with
    | none => exact ⟨r, rfl, rfl, fun _ _ => rfl, fun _ => .inl rfl⟩
    | some peer =>
      have hclosed : peer.outbox.isOpen = false :=
        Bool.not_eq_true _ ▸ fun hopen => hreach d peer ⟨hslot, hd, hopen⟩
      have hother : ∀ (c' : Client) other, d ≠ other →
          (r.setClient d c').client? other = r.client? other := by
        intro c' other hne
        rw [client?_setClient, if_neg hne]
      refine ⟨_, Prod.ext hclosed rfl, rfl, fun other hne => hother _ other fun heq => hne (heq ▸ rfl),
        fun other => ?_⟩
      by_cases heq : d = other
      · subst heq
        rw [Misses, client?_setClient, if_pos rfl, hd, Option.map_some]
        split
        · -- Nothing is queued without a writer.
          exact .inl (by simp [Client.push, Outbox.push, hclosed])
        · exact .inr ⟨peer, hslot, rfl, hclosed, rfl⟩
      · exact .inl (hother _ other heq)

/-! ## Refusing -/

theorem refuse_of_pack {reply : Bytes} (hc : r.client? id = some c)
    (hpack : c.pack c.id (.sendError h.frameId) = .ok (reply, c')) :
    r.refuse id h = (.ok (), (r.setClient id (c'.push (.binary reply))).count
      fun m => { m with sendErrors := m.sendErrors + 1 }) := by
  simp only [refuse, update, hc, hpack, bind, Except.bind, pure, Except.pure]

theorem refuse_of_error {e : ProtocolError} (hc : r.client? id = some c)
    (hpack : c.pack c.id (.sendError h.frameId) = .error e) : r.refuse id h = (.error e, r) := by
  simp only [refuse, update, hc, hpack, bind, Except.bind]

/-- The name of a frame lies behind its cookie. -/
theorem frameId_of_parse (hparse : Header.parse frame = .ok h) :
    h.frameId.toList = (frame.drop 16).take 8 := by
  have hnonce := Header.nonce_of_parse hparse
  show h.nonce.toList.drop 16 = (frame.drop 16).take 8
  rw [hnonce, List.drop_take]

/-- As long as there are numbers left, an authenticated client can be told which frame was not delivered. -/
theorem sealsError_of_parse (hparse : Header.parse frame = .ok h) (hauth : c.isAuthenticated = true)
    (hnumber : c.nextNumber.isSentinel = false) :
    ∃ reply next, c.pack c.id (.sendError h.frameId) = .ok (reply, { c with nextNumber := next }) ∧
      next.combined = c.nextNumber.combined + 1 ∧ c.SealsError ((frame.drop 16).take 8) reply := by
  obtain ⟨admission, address, hphase⟩ := Client.phase_of_isAuthenticated hauth
  have hkey : c.phase.clientKey? = some admission.clientKey := by rw [hphase]; rfl
  have hpacks : ∃ packed, c.pack c.id (.sendError h.frameId) = .ok packed :=
    Client.pack_ok hnumber fun _ => ⟨_, hkey⟩
  obtain ⟨⟨reply, c'⟩, hpack⟩ := hpacks
  obtain ⟨-, header, payload, next, hheader, hpayload, hnext, rfl, rfl⟩ := Client.pack_eq_ok.mp hpack
  refine ⟨_, next, hpack, SequenceNumber.combined_of_next hnext, header, _, h.frameId,
    frameId_of_parse hparse, hkey, Header.ofOctets_of_toOctets hheader, ?_⟩
  obtain ⟨signed, hsigned, ⟨hplain, -⟩ | ⟨-, key, hpeer, rfl⟩⟩ := Message.payload_eq_ok.mp hpayload
  · cases hplain
  · cases hkey.symm.trans hpeer
    cases hsigned
    rfl

/-! ## Outcomes -/

/-- Somebody with a writer has the destination: the frame is relayed, and not refused. -/
theorem relayed_of_reaches (hslot : (r.slots c.path).get c.id = some id)
    (hreach : r.Reaches c.path h.destination d peer) :
    ∃ s, r.handleRaw id c h frame = (.ok (), s) ∧ r.Relayed d peer frame s := by
  have hpass := passOn_of_reaches frame hreach
  obtain ⟨-, hd, hopen⟩ := hreach
  have hset : ∀ peer', (r.setClient d peer').client? d = some peer' := by
    intro peer'
    rw [client?_setClient, if_pos rfl, hd, Option.map_some]
  rw [handleRaw, if_pos hslot, hpass]
  refine ⟨_, rfl, fun hempty => ?_, fun hinbox => ?_, fun other hne => ?_, rfl⟩
  · refine (hset _).trans ?_
    rw [if_pos (by rw [hempty]; rfl)]
    simp [Client.push, Outbox.push, hopen]
  · refine (hset _).trans ?_
    rw [if_neg (by simpa using hinbox)]
  · exact (client?_setClient ..).trans (if_neg (Ne.symm hne))

/-- Nobody with a writer has the destination: the frame is refused, if there is a number left. -/
theorem refused_of_not_reaches (hc : r.client? id = some c) (hauth : c.isAuthenticated = true)
    (hparse : Header.parse frame = .ok h) (hslot : (r.slots c.path).get c.id = some id)
    (hself : (r.slots c.path).get h.destination ≠ some id)
    (hreach : ∀ d peer, ¬ r.Reaches c.path h.destination d peer) :
    (c.nextNumber.isSentinel = false →
      ∃ s, r.handleRaw id c h frame = (.ok (), s) ∧ r.Refused id c h.destination frame s) ∧
    (c.nextNumber.isSentinel = true →
      ∃ s, r.handleRaw id c h frame = (.error (.overflowSentinel .outbound), s) ∧
        r.Exhausted id c h.destination frame s) := by
  obtain ⟨s, hpass, hrest, hkept, hmisses⟩ := passOn_of_not_reaches frame hreach
  -- The frame was not left with its sender, so that is refused in the state in which it sent.
  have hs : s.client? id = some c := (hkept id hself).trans hc
  rw [handleRaw, if_pos hslot, hpass]
  refine ⟨fun hnumber => ?_, fun hsentinel => ?_⟩
  · obtain ⟨reply, next, hpack, hnext, hseals⟩ := sealsError_of_parse hparse hauth hnumber
    refine ⟨_, refuse_of_pack hs hpack, ⟨reply, next, hseals, hnext, ?_⟩, fun other hne => ?_, ?_⟩
    · refine (client?_setClient ..).trans ?_
      rw [if_pos rfl, hs]
      rfl
    · have hsame : ∀ c', ((s.setClient id c').count fun m =>
          { m with sendErrors := m.sendErrors + 1 }).client? other = s.client? other :=
        fun c' => (client?_setClient ..).trans (if_neg (Ne.symm hne))
      rw [Misses, hsame]
      exact hmisses other
    · rw [hrest]
      rfl
  · exact ⟨s, refuse_of_error hs (Client.pack_sentinel hsentinel ..), hs, fun other _ => hmisses other, hrest⟩

/-- **Every frame to another client has exactly one outcome.** A frame of a client without its address changes
nothing. Otherwise, if somebody with a writer has the destination, it is somebody else, and the frame is relayed
as it came: it is queued, or put behind what waits in the inbox, and counted, and nothing else happens. If
there is nobody with a writer, the sender gets one sealed error that names the frame, with the next number, and
this is counted; if there is no next number, the frame ends in an error and the sender and all counters stay as
they are. In these last two cases all others stay as they are, too, but for the inbox of one without a writer. -/
theorem raw_run (service : Service) (actions : List Action) (id : ClientId) (c c' : Client)
    (bytes frame : Bytes) (h : Header) (hc : ((new service).run actions).client? id = some c)
    (hu : c.unpack bytes = .ok (.raw h frame, c')) :
    c' = c ∧ frame = bytes ∧ Header.parse bytes = .ok h ∧
    ((((new service).run actions).slots c.path).get c.id ≠ some id →
      ((new service).run actions).received id bytes = (.ok (), (new service).run actions)) ∧
    ((((new service).run actions).slots c.path).get c.id = some id →
      (∀ d peer, ((new service).run actions).Reaches c.path h.destination d peer → d ≠ id ∧
        ∃ s, ((new service).run actions).received id bytes = (.ok (), s) ∧
          ((new service).run actions).Relayed d peer bytes s) ∧
      ((∀ d peer, ¬ ((new service).run actions).Reaches c.path h.destination d peer) →
        (c.nextNumber.isSentinel = false →
          ∃ s, ((new service).run actions).received id bytes = (.ok (), s) ∧
            ((new service).run actions).Refused id c h.destination bytes s) ∧
        (c.nextNumber.isSentinel = true →
          ∃ s, ((new service).run actions).received id bytes = (.error (.overflowSentinel .outbound), s) ∧
            ((new service).run actions).Exhausted id c h.destination bytes s))) := by
  have hr := coherent_run service actions
  generalize (new service).run actions = r at hc hr ⊢
  obtain ⟨f, hparse, rfl, rfl, rfl, -, hreach⟩ := unpack_raw hu
  have hheader := Frame.header_of_parse hparse
  obtain ⟨hauth, -⟩ := Client.mayReach_iff.mp hreach
  have hreceived : r.received id frame = r.handleRaw id c' f.header frame := by
    simp only [received, hc, hu, handle, setClient_eq_self hc]
  -- Nobody may send to his own side, so the sender does not have the destination.
  have hdistinct : ∀ d, (r.slots c'.path).get c'.id = some id →
      (r.slots c'.path).get f.header.destination = some d → id ≠ d := by
    intro d hslot hpeer
    obtain ⟨_, _, _, _, _, hhands⟩ := handover_of_raw hr hc hu hslot hpeer
    exact hhands.distinct
  rw [hreceived]
  refine ⟨rfl, rfl, hheader, fun hslot => if_neg hslot, fun hslot => ⟨fun d peer hreaches => ?_,
    fun hnobody => ?_⟩⟩
  · exact ⟨(hdistinct d hslot hreaches.1).symm, relayed_of_reaches hslot hreaches⟩
  · exact refused_of_not_reaches hc hauth hheader hslot (fun hself => hdistinct id hslot hself rfl) hnobody

namespace Displaced

/-- A frame of the responder to whoever has the initiator's address. -/
def offer : Bytes :=
  BigEndian.encode 25 0x0500000000000000000000000000000002010000000000002a

def offerHeader : Header := ⟨⟨Octets.fit [5]⟩, ⟨2⟩, .initiator, ⟨0, 0⟩⟩

/-- The frame can be passed on: the second initiator is there, with a writer. -/
theorem offer_reaches : ∃ c peer, relay.client? ⟨1⟩ = some c ∧
    c.unpack offer = .ok (.raw offerHeader offer, c) ∧ (relay.slots c.path).get c.id = some ⟨1⟩ ∧
    relay.Reaches c.path .initiator ⟨2⟩ peer := by
  obtain ⟨c, peer, hc, hauth, hrole, hid, hslot, hpeer, hd, hopen⟩ := faces
  have hparse : Frame.parse offer = .ok ⟨offerHeader, [0x2a]⟩ := by rfl
  have hreach : c.mayReach offerHeader.destination.kind = true :=
    Client.mayReach_iff.mpr ⟨hauth, .responder, hrole, by decide⟩
  have hu := Client.unpack_eq_ok.mpr ⟨_, hparse, hid.symm, .inr ⟨by decide, hreach, rfl, rfl⟩⟩
  exact ⟨c, peer, hc, hu, hslot, hpeer, hd, hopen⟩

end Displaced

/-- The responder's frame is relayed to the second initiator, who has the address now. -/
theorem raw_run_displaced : ∃ c peer s, Displaced.relay.client? ⟨1⟩ = some c ∧
    c.unpack Displaced.offer = .ok (.raw Displaced.offerHeader Displaced.offer, c) ∧
    Displaced.relay.Reaches c.path .initiator ⟨2⟩ peer ∧
    Displaced.relay.received ⟨1⟩ Displaced.offer = (.ok (), s) ∧
    Displaced.relay.Relayed ⟨2⟩ peer Displaced.offer s := by
  obtain ⟨c, peer, hc, hu, hslot, hreaches⟩ := Displaced.offer_reaches
  obtain ⟨-, -, -, -, howner⟩ := raw_run Displaced.service Displaced.actions ⟨1⟩ c c Displaced.offer
    Displaced.offer Displaced.offerHeader hc hu
  obtain ⟨-, s, hreceived, hrelayed⟩ := (howner hslot).1 ⟨2⟩ peer hreaches
  exact ⟨c, peer, s, hc, hu, hreaches, hreceived, hrelayed⟩

end Relay

end Rendezvous
