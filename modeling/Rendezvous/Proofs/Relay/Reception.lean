import Rendezvous.Proofs.Peer
import Rendezvous.Proofs.Relay.Authentication
import Rendezvous.Proofs.Relay.Closing

/-!
# What a client's peer receives

A peer that is given what was put into its channel, in order, receives each frame as what was sent in it.
The peer counts the frames of the server and opens them; the server takes a number for each frame that it
packs. So the two agree as long as every packed frame is also sent, which is why nothing may be packed
from outside; frames of other clients are passed over by both.

The proof follows the ledger. A step of a client sends at most one frame, and the peer that has received
everything before receives this one too (`Sends`, `Tracked.sends`). That messages are such as a peer can
read is due to their origin: responders are told of under their addresses, and nobody is told of the
server's (`sound_of_record`).

* **`Letter.Sound`** — the letters that clients get.
* **`Client.Sends`** — what a step of a client sends.
* **`Entry.Reads`** — the result by which a peer has received what was sent.
* **`received_run`** — what follows for runs.
-/

namespace Rendezvous

/-! ## The letters that clients get -/

/-- A letter is a message of the server, but not its first one, or a frame of another client. -/
def Letter.Sound : Letter → Prop
  | .said m _ => m.Spoken ∧ m.isSealed = true
  | .relayed _ frame => ∃ f, Frame.parse frame = .ok f ∧ f.header.source ≠ .server

theorem Message.spoken_serverAuth {auth : ServerAuth} (h : (serverAuth auth).Fits) :
    (serverAuth auth).Spoken :=
  ⟨trivial, h, .serverAuth, by decide, rfl⟩

theorem Slots.length_responderIds {α : Type} (s : Slots α) : s.responderIds.length ≤ 254 := by
  have hfilter : s.responders.length ≤ Address.responders.length := List.length_filterMap_le ..
  have hlength : Address.responders.length = 254 := by simp [Address.responders]
  rw [responderIds, List.length_map]
  omega

namespace Relay

variable {r s : Relay} {id d : ClientId} {act : Action} {e : Event} {l : Letter}

/-- Whoever joined is announced in a letter that is sound. -/
theorem sound_joined {role : Role} {address : Address} {seats : Slots ClientId}
    (hkind : address.kind = role.addressKind) : (Letter.said (joined role address) seats).Sound := by
  cases role with
  | initiator => exact ⟨⟨trivial, trivial, .newInitiator, by decide, rfl⟩, rfl⟩
  | responder =>
    have hresponder : address.isResponder = true := (Address.isResponder_iff address).mpr hkind
    exact ⟨⟨hresponder, trivial, .newResponder, by decide, rfl⟩, rfl⟩

/-- **All letters are sound**, whichever action causes them. -/
theorem sound_of_record (hr : r.census.Coherent) (h : (d, e) ∈ r.record act)
    (hletter : e.letter? = some l) : l.Sound := by
  have hnews : (d, e) ∈ (r.record act).news := by
    refine List.mem_filter.mpr ⟨h, ?_⟩
    cases e <;> first | rfl | cases hletter
  have hturn := turn_perform hr act
  generalize (r.record act).news = news at hnews hturn
  generalize r.perform act = s at hturn
  cases hturn with
  | quiet | release => cases hnews
  | introduce | authorize | drop =>
    cases List.mem_singleton.mp hnews
    cases hletter
  | relay hact hto =>
    cases List.mem_singleton.mp hnews
    cases hletter
    obtain ⟨path, f, sender, receiver, hparse, ho⟩ := hto
    exact ⟨f, hparse, ho.ne_server⟩
  | @seat id c a path address auth frame s hact hc hphase hkind hfree hslots hside =>
    rcases List.mem_cons.mp hnews with heq | hnews
    · cases heq
      cases hletter
      refine ⟨Message.spoken_serverAuth fun addresses hresponders => ?_, rfl⟩
      rw [hside] at hresponders
      cases hrole : a.role with
      | initiator =>
        rw [hrole] at hresponders
        cases hresponders
        have := (s.slots path).length_responderIds
        omega
      | responder =>
        rw [hrole] at hresponders
        cases hresponders
    · obtain ⟨other, -, heq⟩ := List.mem_map.mp hnews
      cases heq
      cases hletter
      exact sound_joined hkind
  | @leave id c role s hact hc hauth hslot hrole hslots =>
    obtain ⟨other, -, heq⟩ := List.mem_map.mp hnews
    cases heq
    cases hletter
    have hne : c.id ≠ .server := by
      intro heq
      refine kind_ne_server hr hslot ?_
      rw [heq]
      rfl
    exact ⟨⟨hne, trivial, .disconnected, by decide, rfl⟩, rfl⟩

theorem sound_of_journal (hr : r.census.Coherent) {actions : List Action}
    (h : (d, e) ∈ r.journal actions) (hletter : e.letter? = some l) : l.Sound := by
  induction actions generalizing r with
  | nil => cases h
  | cons act rest ih =>
    rcases List.mem_append.mp h with h | h
    · exact sound_of_record hr h hletter
    · exact ih (coherent_perform hr act) h

end Relay

/-! ## What a step sends -/

/-- The frames among what was sent. -/
def Ledger.frames (l : Ledger) : List Entry :=
  l.sent.filter Entry.isFrame

section Ledgers

variable {history : List Event} {e : Event} {l : Letter}

/-- What is no frame does not count. -/
theorem Ledger.frames_of_sent {ledger after : Ledger} {x : Entry}
    (hsent : after.sent = ledger.sent ++ [x]) (hx : x.isFrame = false) :
    after.frames = ledger.frames := by
  rw [frames, hsent, List.filter_append, List.filter_cons_of_neg (Bool.eq_false_iff.mp hx),
    List.filter_nil, List.append_nil]
  rfl

theorem Ledger.waiting_note {ledger : Ledger} (h : l ∈ (ledger.note e).waiting) :
    l ∈ ledger.waiting ∨ e.letter? = some l := by
  have hpop : ∀ {frame : Bytes}, l ∈ (ledger.pop frame).waiting → l ∈ ledger.waiting := by
    intro frame h
    unfold pop at h
    split at h
    · exact h
    · next hwaiting =>
      rw [hwaiting]
      exact .tail _ h
  have hwait : ∀ {l' : Letter}, l ∈ (ledger.wait l').waiting → l ∈ ledger.waiting ∨ l' = l := by
    intro l' h
    rcases List.mem_append.mp h with h | h
    · exact .inl h
    · exact .inr (List.mem_singleton.mp h).symm
  cases e with
  | told =>
    rcases hwait h with h | rfl
    · exact .inl h
    · exact .inr rfl
  | relayed =>
    unfold note at h
    dsimp only at h
    split at h
    · exact .inl h
    · rcases hwait h with h | rfl
      · exact .inl h
      · exact .inr rfl
  | served | released => exact .inl (hpop h)
  | cut => cases h
  | _ => exact .inl h

/-- Whatever waits was caused. -/
theorem mem_letters_of_waiting (h : l ∈ (ledger history).waiting) : l ∈ letters history := by
  induction history using List.reverseRecOn with
  | nil => cases h
  | append_singleton history e ih =>
    rw [ledger_concat] at h
    rw [letters_concat]
    rcases Ledger.waiting_note h with h | h
    · exact List.mem_append_left _ (ih h)
    · rw [h]
      exact List.mem_append_right _ (.head _)

end Ledgers

namespace Client

/-- What is sent by a step of a client: no frame, a frame of another client, or a message of the server.
The first message introduces the server, and all others are sealed. -/
inductive Sends (c : Client) : List Entry → Client → Prop where
  | nothing {c' : Client} (hnumber : c'.nextNumber = c.nextNumber)
      (hphase : c'.phase = .fresh ↔ c.phase = .fresh) : Sends c [] c'
  | passes {sender : ClientId} {frame : Bytes} {f : Frame} {c' : Client}
      (hparse : Frame.parse frame = .ok f) (hsource : f.header.source ≠ .server)
      (hnumber : c'.nextNumber = c.nextNumber) (hphase : c'.phase = .fresh ↔ c.phase = .fresh) :
      Sends c [.letter (.relayed sender frame) frame] c'
  | packs {x : Entry} {m : Message} {destination : Address} {frame : Bytes} {c₁ c' : Client}
      (hx : x.message? = some m) (hitem : x.item = .binary frame) (hspoken : m.Spoken)
      (hpack : c.pack destination m = .ok (frame, c₁))
      (hturn : c.MaySay m)
      (hnumber : c'.nextNumber = c₁.nextNumber) (hphase : c'.phase ≠ .fresh) : Sends c [x] c'

variable {service : Service} {c c' : Client} {es history : List Event} {e : Event}

theorem ne_fresh_of_authenticated (h : c.isAuthenticated = true) : c.phase ≠ .fresh := by
  intro hphase
  rw [isAuthenticated, hphase] at h
  cases h

/-- No frame is sent. -/
theorem Sends.of_silent (hsent : ((ledger history).note e).frames = (ledger history).frames)
    (hnumber : c'.nextNumber = c.nextNumber) (hphase : c'.phase = .fresh ↔ c.phase = .fresh) :
    ∃ xs, c.Sends xs c' ∧ (ledger (history ++ [e])).frames = (ledger history).frames ++ xs := by
  rw [ledger_concat, hsent]
  exact ⟨[], .nothing hnumber hphase, (List.append_nil _).symm⟩

/-- One frame is sent. -/
theorem Sends.of_sent {x : Entry} (h : c.Sends [x] c')
    (hsent : ((ledger history).note e).sent = (ledger history).sent ++ [x])
    (hframe : x.isFrame = true) :
    ∃ xs, c.Sends xs c' ∧ (ledger (history ++ [e])).frames = (ledger history).frames ++ xs := by
  refine ⟨[x], h, ?_⟩
  rw [ledger_concat, Ledger.frames, hsent, List.filter_append, List.filter_cons_of_pos hframe]
  rfl

/-- The letter that waited longest is sent. -/
theorem Sends.of_pop {d : Delivery} {rest : List Delivery} {frame : Bytes} (h : Booked c history)
    (hinbox : c.inbox = d :: rest) (hnote : (ledger history).note e = (ledger history).pop frame)
    (hsends : ∀ l ∈ letters history, l.delivery = d → c.Sends [.letter l frame] c') :
    ∃ xs, c.Sends xs c' ∧ (ledger (history ++ [e])).frames = (ledger history).frames ++ xs := by
  have hmap := h.inbox
  rw [hinbox] at hmap
  obtain ⟨l, waiting, hwaiting, hl, -⟩ := List.map_eq_cons_iff.mp hmap
  have hcaused : l ∈ letters history := by
    refine mem_letters_of_waiting ?_
    rw [hwaiting]
    exact .head _
  refine (hsends l hcaused hl).of_sent ?_ rfl
  rw [hnote]
  simp only [Ledger.pop, hwaiting]

theorem frames_recordPings (a : Admission) (history : List Event) :
    (ledger (history ++ a.recordPings)).frames = (ledger history).frames := by
  unfold Admission.recordPings
  split
  · rw [List.append_nil]
  · rw [ledger_concat]
    exact Ledger.frames_of_sent rfl rfl

theorem Sends.of_step (h : Booked c history) (hstep : Step service c es c')
    (hsound : ∀ l ∈ letters (history ++ es), l.Sound)
    (hpacked : ∀ destination m frame, .packed destination m frame ∉ es)
    (hposted : ∀ m frame, .posted m frame ∉ es) :
    ∃ xs, c.Sends xs c' ∧ (ledger (history ++ es)).frames = (ledger history).frames ++ xs := by
  cases hstep with
  | move | leave =>
    rw [List.append_nil]
    exact ⟨[], .nothing rfl .rfl, (List.append_nil _).symm⟩
  | accept | drop | tell | collect | hangUp => exact Sends.of_silent rfl rfl .rfl
  | introduce hok =>
    obtain ⟨hphase, rfl⟩ := introduce_eq_ok.mp hok
    refine Sends.of_silent rfl rfl ?_
    rw [hphase]
    exact iff_of_false Phase.noConfusion Phase.noConfusion
  | authorize hok =>
    obtain ⟨role, key, permanent, hclaimed, -, -, -, rfl⟩ := authorize_eq_ok.mp hok
    exact Sends.of_silent rfl rfl (iff_of_false Phase.noConfusion (phase_of_claimed hclaimed).1)
  | order hitem => exact Sends.of_silent (Ledger.frames_of_sent rfl rfl) rfl .rfl
  | cut => exact Sends.of_silent (Ledger.frames_of_sent rfl rfl) rfl .rfl
  | @greet frame c₁ hphase hpack =>
    have hspoken : (Message.serverHello c.session.publicKey).Spoken :=
      ⟨trivial, trivial, .serverHello, by decide, rfl⟩
    have hgreeted : ({ c₁ with phase := .greeted }.push (.binary frame)).phase ≠ .fresh :=
      Phase.noConfusion
    have hsent : c.Sends [.reply (.serverHello c.session.publicKey) frame]
        ({ c₁ with phase := .greeted }.push (.binary frame)) :=
      .packs rfl rfl hspoken hpack (.inl ⟨hphase, rfl⟩) rfl hgreeted
    exact hsent.of_sent rfl rfl
  | @answer a address auth seats frame c₁ hphase hpack =>
    have hanswer : (Letter.said (.serverAuth auth) seats).Sound := by
      refine hsound _ ?_
      rw [letters_append]
      exact List.mem_append_right _ (.head _)
    have hnumber : (Relay.seated c₁ a address frame).nextNumber = c₁.nextNumber := by
      unfold Relay.seated
      dsimp only
      split <;> rfl
    have hseated : (Relay.seated c₁ a address frame).phase ≠ .fresh := by
      unfold Relay.seated
      dsimp only
      split <;> exact Phase.noConfusion
    have hstarted : c.phase ≠ .fresh := by
      rw [hphase]
      exact Phase.noConfusion
    have hsent : c.Sends [.letter (.said (.serverAuth auth) seats) frame]
        (Relay.seated c₁ a address frame) :=
      .packs rfl rfl hanswer.1 hpack (.inr ⟨hstarted, rfl⟩) hnumber hseated
    obtain ⟨xs, hxs, hframes⟩ := hsent.of_sent (e := .answered auth seats frame) rfl rfl
    refine ⟨xs, hxs, ?_⟩
    rw [← List.singleton_append, ← List.append_assoc, frames_recordPings, hframes]
  | @refuse id frame c₁ hauth hpack =>
    have hspoken : (Message.sendError id).Spoken := ⟨trivial, trivial, .sendError, by decide, rfl⟩
    have hstarted := ne_fresh_of_authenticated hauth
    have hkept : c₁.phase ≠ .fresh := by
      obtain ⟨next, -, rfl⟩ := eq_of_pack hpack
      exact hstarted
    have hsent : c.Sends [.reply (.sendError id) frame] (c₁.push (.binary frame)) :=
      .packs rfl rfl hspoken hpack (.inr ⟨hstarted, rfl⟩) rfl hkept
    exact hsent.of_sent rfl rfl
  | pack hpack => exact absurd (.head _) (hpacked _ _ _)
  | post hsending => exact absurd (.head _) (hposted _ _)
  | @pass sender frame hauth hinbox =>
    have hrelayed : (Letter.relayed sender frame).Sound := by
      refine hsound _ ?_
      rw [letters_append]
      exact List.mem_append_right _ (.head _)
    obtain ⟨f, hparse, hsource⟩ := hrelayed
    have hsent : c.Sends [.letter (.relayed sender frame) frame] (c.push (.binary frame)) :=
      .passes hparse hsource rfl .rfl
    refine hsent.of_sent ?_ rfl
    rw [Ledger.note_relayed_of_nil (h.waiting_eq_nil hinbox)]
    rfl
  | @queue sender frame hauth hinbox =>
    have hwaiting : (ledger history).waiting ≠ [] := by
      intro hnil
      rw [← h.inbox, hnil] at hinbox
      exact hinbox rfl
    refine Sends.of_silent ?_ rfl .rfl
    rw [Ledger.note_relayed_of_ne hwaiting]
    rfl
  | @serve m rest frame c₁ hinbox hsending =>
    obtain ⟨hauth, hpack⟩ := sending_eq_ok.mp hsending
    have hstarted := ne_fresh_of_authenticated hauth
    have hkept : c₁.phase ≠ .fresh := by
      obtain ⟨next, -, rfl⟩ := eq_of_pack hpack
      exact hstarted
    refine Sends.of_pop h hinbox rfl fun l hl hdelivery => ?_
    replace hl := hsound l (by rw [letters_append]; exact List.mem_append_left _ hl)
    cases l with
    | said =>
      cases hdelivery
      exact .packs rfl rfl hl.1 hpack (.inr ⟨hstarted, hl.2⟩) rfl hkept
    | relayed => cases hdelivery
  | @release frame rest hinbox =>
    refine Sends.of_pop h hinbox rfl fun l hl hdelivery => ?_
    replace hl := hsound l (by rw [letters_append]; exact List.mem_append_left _ hl)
    cases l with
    | said => cases hdelivery
    | relayed =>
      cases hdelivery
      obtain ⟨f, hparse, hsource⟩ := hl
      exact .passes hparse hsource rfl .rfl

end Client

/-! ## What a peer makes of it -/

/-- The frame in something that is put into a channel. -/
def Outbound.frame? : Outbound → Option Bytes
  | .binary frame => some frame
  | _ => none

def Entry.frame? : Entry → Option Bytes
  | .letter _ frame | .reply _ frame => some frame
  | .order _ => none

/-- Nothing but messages and frames of other clients is put into a channel as a frame. -/
theorem Entry.Genuine.frame?_item {x : Entry} {c : Client} (h : x.Genuine c) :
    x.item.frame? = x.frame? := by
  cases x with
  | letter | reply => rfl
  | order item =>
    cases item with
    | binary frame => exact absurd rfl (h frame)
    | keepAlive | close => rfl

theorem Ledger.filterMap_frames (l : Ledger) :
    l.frames.filterMap Entry.frame? = l.sent.filterMap Entry.frame? := by
  rw [frames, List.filterMap_filter]
  refine List.filterMap_congr fun x _ => ?_
  cases x <;> rfl

theorem Ledger.map_frames (l : Ledger) :
    l.frames.map Entry.frame? = (l.frames.filterMap Entry.frame?).map some := by
  rw [List.map_filterMap_some_eq_filter_map_isSome]
  refine (List.filter_eq_self.mpr fun frame hframe => ?_).symm
  obtain ⟨x, hx, rfl⟩ := List.mem_map.mp hframe
  cases x with
  | letter | reply => rfl
  | order => cases (List.mem_filter.mp hx).2

/-- The result by which a peer has received what was sent to it. -/
def Entry.Reads (session : PublicKey) (x : Entry) (result : Except PeerError Received) : Prop :=
  match x with
  | .letter (.relayed _ bytes) _ => result = .ok (.relayed bytes)
  | .letter (.said m _) frame | .reply m frame =>
    (∀ key, m = .serverHello key → key = session) ∧
      ∃ signed, ∃ nonce : Nonce, nonce.toList = frame.take 24 ∧ result = .ok (m.received signed nonce)
  | .order _ => False

/-- A peer that is given all frames that were sent to a client receives them as what was sent. -/
structure Tracked (peer : Peer) (c : Client) (history : List Event) : Prop where
  keys : (peer.receiveAll ((ledger history).frames.filterMap Entry.frame?)).2.keys = peer.keys
  follows : (peer.receiveAll ((ledger history).frames.filterMap Entry.frame?)).2.Follows c
  reads : List.Forall₂ (Entry.Reads c.session.publicKey) (ledger history).frames
    (peer.receiveAll ((ledger history).frames.filterMap Entry.frame?)).1

variable {peer : Peer} {c c' : Client} {history es : List Event} {xs : List Entry}

/-- **What is sent by one step is received**, if the peer has received what was sent before. -/
theorem Client.Sends.received (h : c.Sends xs c') (hfollows : peer.Follows c)
    (hopens : peer.Opens c) (hsession : c'.session = c.session) (hcookie : c'.cookie = c.cookie) :
    (peer.receiveAll (xs.filterMap Entry.frame?)).2.keys = peer.keys ∧
      (peer.receiveAll (xs.filterMap Entry.frame?)).2.Follows c' ∧
      List.Forall₂ (Entry.Reads c.session.publicKey) xs
        (peer.receiveAll (xs.filterMap Entry.frame?)).1 := by
  cases h with
  | nothing hnumber hphase => exact ⟨rfl, hfollows.congr hcookie hsession hnumber hphase, .nil⟩
  | @passes sender frame f _ hparse hsource hnumber hphase =>
    have hreceive := Peer.receive_relayed (p := peer) hparse hsource
    have hall : peer.receiveAll [frame] = ([.ok (.relayed frame)], peer) := by
      rw [Peer.receiveAll, hreceive]
      rfl
    show (peer.receiveAll [frame]).2.keys = _ ∧ (peer.receiveAll [frame]).2.Follows c' ∧
      List.Forall₂ _ _ (peer.receiveAll [frame]).1
    rw [hall]
    exact ⟨rfl, hfollows.congr hcookie hsession hnumber hphase, .cons rfl .nil⟩
  | @packs x m destination frame c₁ _ hx hitem hspoken hpack hturn hnumber hphase =>
    obtain ⟨signed, -, hreceive⟩ := Peer.receive_pack hfollows hopens hspoken hpack hturn
    rw [← hnumber] at hreceive
    have hall : ∀ {q : Peer} {result : Except PeerError Received},
        peer.receive frame = (result, q) → peer.receiveAll [frame] = ([result], q) := by
      intro q result heq
      rw [Peer.receiveAll, heq]
      rfl
    have hframe : [x].filterMap Entry.frame? = [frame] := by
      cases x with
      | letter l => cases hitem; rfl
      | reply => cases hitem; rfl
      | order => cases hx
    have hnonce := Client.nonce_of_pack hpack
    rw [hframe, hall hreceive]
    refine ⟨Peer.keys_note .., ?_, .cons ?_ .nil⟩
    · exact Peer.follows_note _ hfollows hturn hcookie hsession hphase _
    · have hkey : ∀ key, m = .serverHello key → key = c.session.publicKey := by
        rintro key rfl
        rcases hturn with ⟨-, heq⟩ | ⟨-, hsealed⟩
        · cases heq
          rfl
        · cases hsealed
      cases x with
      | letter l =>
        cases l with
        | said => cases hx; cases hitem; exact ⟨hkey, signed, _, hnonce, rfl⟩
        | relayed => cases hx
      | reply => cases hx; cases hitem; exact ⟨hkey, signed, _, hnonce, rfl⟩
      | order => cases hx

namespace Tracked

/-- A peer that was given nothing yet. -/
theorem newcomer (r : Relay) (path : PathId) (key : PublicKey) (subprotocol : String)
    (draw : Relay.Draw) (keys : KeyPair) (cookie : Cookie) (number : SequenceNumber) :
    Tracked (Peer.new keys cookie number) (r.newcomer path key subprotocol draw) [.opened draw] :=
  ⟨rfl, ⟨nofun, nofun, rfl⟩, .nil⟩

theorem sends (h : Tracked peer c history) (hsends : c.Sends xs c') (hopens : peer.Opens c)
    (hsession : c'.session = c.session) (hcookie : c'.cookie = c.cookie)
    (hframes : (ledger (history ++ es)).frames = (ledger history).frames ++ xs) :
    Tracked peer c' (history ++ es) := by
  rw [Peer.Opens, ← h.keys] at hopens
  obtain ⟨hkeys, hfollows, hreads⟩ := hsends.received h.follows hopens hsession hcookie
  have hall := Peer.receiveAll_append peer ((ledger history).frames.filterMap Entry.frame?)
    (xs.filterMap Entry.frame?)
  rw [← List.filterMap_append, ← hframes] at hall
  refine ⟨?_, ?_, ?_⟩
  · rw [hall]
    exact hkeys.trans h.keys
  · rw [hall]
    exact hfollows
  · rw [hall, hframes, hsession]
    exact List.rel_append h.reads hreads

end Tracked

/-- What was sent to a client is legible for the holder of some keys: all letters are sound, nothing comes
from outside, and what is sealed for the client opens with these keys. -/
structure Legible (keys : KeyPair) (c : Client) (history : List Event) : Prop where
  sound : ∀ l ∈ letters history, l.Sound
  packed : ∀ destination m frame, .packed destination m frame ∉ history
  posted : ∀ m frame, .posted m frame ∉ history
  key : ∀ key, c.phase.clientKey? = some key → key.samePoint keys.publicKey = true
  agrees : keys.Agrees c.session

/-- It was so at each time before, since a client keeps its key once that is known. -/
theorem Legible.before {service : Service} {keys : KeyPair} (h : Legible keys c' (history ++ es))
    (hstep : Client.Step service c es c') : Legible keys c history := by
  refine ⟨fun l hl => h.sound l ?_, fun _ _ _ hmem => h.packed _ _ _ (List.mem_append_left _ hmem),
    fun _ _ hmem => h.posted _ _ (List.mem_append_left _ hmem),
    fun key hkey => h.key key (hstep.clientKey_eq hkey), ?_⟩
  · rw [letters_append]
    exact List.mem_append_left _ hl
  · rw [← hstep.later.session_eq]
    exact h.agrees

/-- Each step of a client is received. -/
theorem Tracked.step {service : Service} {keys : KeyPair} (h : Tracked peer c history)
    (hbooked : Booked c history) (hlegible : Legible keys c' (history ++ es))
    (hkeys : peer.keys = keys) (hstep : Client.Step service c es c') :
    Tracked peer c' (history ++ es) := by
  obtain ⟨xs, hsends, hframes⟩ := Client.Sends.of_step hbooked hstep hlegible.sound
    (fun _ _ _ hmem => hlegible.packed _ _ _ (List.mem_append_right _ hmem))
    (fun _ _ hmem => hlegible.posted _ _ (List.mem_append_right _ hmem))
  have hbefore := hlegible.before hstep
  refine h.sends hsends (fun key hkey nonce plain => ?_) hstep.later.session_eq
    hstep.later.cookie_eq hframes
  rw [hkeys]
  exact hbefore.agrees.opens (hbefore.key key hkey) nonce plain

namespace Relay

variable {service : Service} {actions : List Action} {id : ClientId} {c : Client}

/-- In a run in which nothing is packed from outside, everything that was sent is legible. -/
theorem legible_run (hsend : ∀ d m, Action.send d m ∉ actions)
    (hpack : ∀ d destination m, Action.pack d destination m ∉ actions) {keys : KeyPair}
    (hkey : ∀ key, c.phase.clientKey? = some key → key.samePoint keys.publicKey = true)
    (hagrees : keys.Agrees c.session) :
    Legible keys c ((new service).history actions id) := by
  refine ⟨fun l hl => ?_, fun destination m frame hmem => ?_, fun m frame hmem => ?_, hkey, hagrees⟩
  · obtain ⟨e, he, hletter⟩ := List.mem_filterMap.mp hl
    exact sound_of_journal (coherent_new service) (Journal.mem_of.mp he) hletter
  · obtain ⟨act, hact, hfrom⟩ := from_of_history hmem
    replace hfrom : act = .pack id destination m := hfrom
    exact hpack _ _ _ (hfrom ▸ hact)
  · obtain ⟨act, hact, hfrom⟩ := from_of_history hmem
    replace hfrom : act = .send id m := hfrom
    exact hsend _ _ (hfrom ▸ hact)

/-- A peer that is given all frames that were sent receives them. -/
theorem tracked_run (keys : KeyPair) (cookie : Cookie) (number : SequenceNumber)
    (hc : ((new service).run actions).client? id = some c)
    (hlegible : Legible keys c ((new service).history actions id)) :
    Tracked (Peer.new keys cookie number) c ((new service).history actions id) := by
  have htracked : ∀ c, ((new service).run actions).client? id = some c →
      Booked c ((new service).history actions id) ∧
        (Legible keys c ((new service).history actions id) →
          Tracked (Peer.new keys cookie number) c ((new service).history actions id)) :=
    (history_induction (P := fun c history => Booked c history ∧
      (Legible keys c history → Tracked (Peer.new keys cookie number) c history))
      (fun r path key subprotocol draw =>
        ⟨Booked.newcomer r path key subprotocol draw, fun _ =>
          Tracked.newcomer r path key subprotocol draw keys cookie number⟩)
      (fun c es c' history hstep h => ⟨h.1.step hstep, fun hlegible =>
        (h.2 (hlegible.before hstep)).step h.1 hlegible rfl hstep⟩)
      actions id).1
  exact (htracked c hc).2 hlegible

/-- All frames of the ledger have gone into the channel, except those for which there was no writer. -/
theorem filterMap_frames_run (hc : ((new service).run actions).client? id = some c) :
    (channel service actions id).filterMap Outbound.frame? <+:
      (ledger ((new service).history actions id)).frames.filterMap Entry.frame? := by
  have hbooked := (booked_run service actions id).1 c hc
  obtain ⟨lost, hstream, -⟩ := hbooked.outbox
  have hchannel : channel service actions id ++ lost =
      (ledger ((new service).history actions id)).sent.map Entry.item := by
    rw [channel, hc, hstream]
    rfl
  rw [Ledger.filterMap_frames,
    ← List.filterMap_congr fun x hx => (hbooked.genuine x hx).frame?_item,
    ← Function.comp_def, ← List.filterMap_map, ← hchannel, List.filterMap_append]
  exact List.prefix_append ..

/-- **The server and its peer agree.** In a run in which nothing is packed from outside, the holder of a
client's key is given the frames in the client's channel, in order. It receives each of them as what was
sent in it, a message of the server or the frame of another client as it came, and none is rejected. It is
assumed that both derive the same key for their boxes. -/
theorem received_run (service : Service) (actions : List Action)
    (hsend : ∀ d m, Action.send d m ∉ actions)
    (hpack : ∀ d destination m, Action.pack d destination m ∉ actions)
    (hc : ((new service).run actions).client? id = some c) (keys : KeyPair) (cookie : Cookie)
    (number : SequenceNumber)
    (hkey : ∀ key, c.phase.clientKey? = some key → key.samePoint keys.publicKey = true)
    (hagrees : keys.Agrees c.session) :
    ∃ sent, sent <+: (ledger ((new service).history actions id)).frames ∧
      sent.map Entry.frame? =
        ((channel service actions id).filterMap Outbound.frame?).map some ∧
      (∀ x ∈ sent, x.Genuine c) ∧
      List.Forall₂ (Entry.Reads c.session.publicKey) sent
        ((Peer.new keys cookie number).receiveAll
          ((channel service actions id).filterMap Outbound.frame?)).1 := by
  have hreads := (tracked_run keys cookie number hc
    (legible_run hsend hpack hkey hagrees)).reads
  have hbooked := (booked_run service actions id).1 c hc
  obtain ⟨lost, hlost⟩ := filterMap_frames_run hc
  generalize (channel service actions id).filterMap Outbound.frame? = frames at hlost ⊢
  have hmap := (ledger ((new service).history actions id)).map_frames
  rw [← hlost] at hmap hreads
  rw [Peer.receiveAll_append] at hreads
  refine ⟨_, List.take_prefix _ _, ?_, fun x hx => ?_, List.forall₂_take_append _ _ _ hreads⟩
  · rw [List.map_take, hmap, Peer.length_receiveAll, List.map_append]
    exact List.take_left' (List.length_map _)
  · exact hbooked.genuine x (List.mem_of_mem_filter (List.mem_of_mem_take hx))

/-- The initiator of the meeting can hear of the responder. -/
theorem received_run_meeting : ∃ c,
    ((new Displaced.service).run meeting).client? ⟨0⟩ = some c ∧
    (∀ d m, Action.send d m ∉ meeting) ∧
    (∀ d destination m, Action.pack d destination m ∉ meeting) ∧
    (∀ key, c.phase.clientKey? = some key →
      key.samePoint (Displaced.pair 1).publicKey = true) ∧
    (Displaced.pair 1).Agrees c.session ∧
    ∃ sent, sent <+: (ledger ((new Displaced.service).history meeting ⟨0⟩)).frames ∧
      sent.map Entry.frame? =
        ((channel Displaced.service meeting ⟨0⟩).filterMap Outbound.frame?).map some ∧
      (∀ x ∈ sent, x.Genuine c) ∧
      List.Forall₂ (Entry.Reads c.session.publicKey) sent
        ((Peer.new (Displaced.pair 1) ⟨Octets.fit [4]⟩ ⟨0, 0⟩).receiveAll
          ((channel Displaced.service meeting ⟨0⟩).filterMap Outbound.frame?)).1 := by
  have hproved : (((new Displaced.service).run (meeting.take 3)).client? ⟨0⟩).any (fun c =>
      c.session == Displaced.pair 2 &&
        c.phase.clientKey?.any (·.samePoint (Displaced.pair 1).publicKey)) = true := by
    decide +kernel
  obtain ⟨d, hd, h⟩ := (Option.any_eq_true _ _).mp hproved
  rw [Bool.and_eq_true, beq_iff_eq] at h
  obtain ⟨key, hdkey, hsame⟩ := (Option.any_eq_true _ _).mp h.2
  -- Both keys are known once the initiator has proved itself, and do not change any more.
  obtain ⟨c, hc, hcsession, hckey⟩ := client?_run
    (P := fun c => c.session = Displaced.pair 2 ∧ c.phase.clientKey? = some key)
    (coherent_run Displaced.service (meeting.take 3))
    (fun _ _ _ _ hstep h => ⟨hstep.later.session_eq.trans h.1, hstep.clientKey_eq h.2⟩)
    hd ⟨h.1, hdkey⟩ (meeting.drop 3)
  rw [← run_append, List.take_append_drop] at hc
  have hsend : ∀ d m, Action.send d m ∉ meeting := by
    intro d m
    simp [meeting, Displaced.connect]
  have hpack : ∀ d destination m, Action.pack d destination m ∉ meeting := by
    intro d destination m
    simp [meeting, Displaced.connect]
  have hkey : ∀ key, c.phase.clientKey? = some key →
      key.samePoint (Displaced.pair 1).publicKey = true := fun key' hkey' => by
    cases hckey.symm.trans hkey'
    exact hsame
  have hagrees : (Displaced.pair 1).Agrees c.session := by
    rw [hcsession]
    show Box.key _ _ = Box.key _ _
    decide +kernel
  exact ⟨c, hc, hsend, hpack, hkey, hagrees,
    received_run Displaced.service meeting hsend hpack hc _ _ _ hkey hagrees⟩

end Relay

end Rendezvous
