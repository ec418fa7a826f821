import Mathlib.Logic.Relation
import Rendezvous.Proofs.Message.Reading
import Rendezvous.Proofs.Relay.Occupancy

/-!
# What a step does to one client

Everything that reaches a client's connection goes through its outbox, directly or after it waited in
the inbox. This module says once in which ways a step can change one client, so that what holds of all
that is sent on a connection is proved from these ways and not from the handlers.

* **`Client.Change`** — one change of one client, of which the *quiet* ones have nothing to do with other
  clients. It is indexed by the frames that may be relayed to the client.
* **`Relay.Changes`** — from one relay to another each client only changes in given ways.
* **`quietly_received`** — a frame that is received changes clients quietly, or it is first relayed to
  one client to whom its sender may hand it over (`Handover`).
* **`relays_perform`** — an action only changes the clients.
-/

namespace Rendezvous

/-! ## Changes of one client -/

namespace Client

/-- A change of a client with which nothing comes from another client. -/
inductive Quiet (c : Client) : Client → Prop where
  /-- The handshake goes on, a frame of the client was counted, or the client leaves. -/
  | stand (p : Phase) (path : PathId) (gone : Bool) (e : Option Expectation) :
      Quiet c { c with phase := p, path := path, gone := gone, expected := e }
  | pack {destination : Address} {m : Message} {frame : Bytes} {c' : Client}
      (h : c.pack destination m = .ok (frame, c')) : Quiet c c'
  | send {destination : Address} {m : Message} {frame : Bytes} {c' : Client}
      (h : c.pack destination m = .ok (frame, c')) : Quiet c (c'.push (.binary frame))
  /-- The writer is told something that is no frame. -/
  | order {item : Outbound} (h : ∀ frame, item ≠ .binary frame) : Quiet c (c.push item)

/-- A change of a client, to which the frames of `R` may be relayed. -/
inductive Change (R : Bytes → Prop) (c : Client) : Client → Prop where
  | quiet {c' : Client} (h : c.Quiet c') : Change R c c'
  | tell (m : Message) : Change R c { c with inbox := c.inbox ++ [.notice m] }
  /-- A frame is relayed at once, if nothing waits. -/
  | pass {frame : Bytes} (h : R frame) (hinbox : c.inbox = []) : Change R c (c.push (.binary frame))
  /-- A frame is relayed behind what waits. -/
  | queue {frame : Bytes} (h : R frame) (hinbox : c.inbox ≠ []) :
      Change R c { c with inbox := c.inbox ++ [.relayed frame] }
  /-- A frame that waited is passed on. -/
  | release {frame : Bytes} (h : .relayed frame ∈ c.inbox) : Change R c (c.push (.binary frame))
  | clear : Change R c { c with inbox := [] }
  | collect : Change R c { c with outbox := c.outbox.drain.2 }
  | hangUp : Change R c { c with outbox := c.outbox.dropWriter }

/-- Some quiet changes of a client, one after the other. -/
abbrev Quietly : Client → Client → Prop := Relation.ReflTransGen Quiet

variable {c c' : Client}

theorem quiet_send {m : Message} (h : c.send m = .ok c') : c.Quiet c' := by
  obtain ⟨-, frame, c₁, hpack, rfl⟩ := send_eq_ok.mp h
  exact .send hpack

theorem quietly_greet (h : c.greet = .ok c') : c.Quietly c' := by
  obtain ⟨-, frame, c₁, hpack, rfl⟩ := greet_eq_ok.mp h
  have hsent : c.Quietly (c₁.push (.binary frame)) := .single (.send hpack)
  exact hsent.tail (.stand .greeted c₁.path c₁.gone c₁.expected)

theorem quiet_introduce {key : PublicKey} (h : c.introduce key = .ok c') : c.Quiet c' := by
  obtain ⟨-, rfl⟩ := introduce_eq_ok.mp h
  exact .stand _ c.path c.gone c.expected

theorem quiet_authorize {service : Service} {auth : ClientAuth}
    (h : c.authorize service auth = .ok c') : c.Quiet c' := by
  obtain ⟨role, key, permanent, -, -, -, -, rfl⟩ := authorize_eq_ok.mp h
  exact .stand _ c.path c.gone c.expected

theorem quietly_unpack {bytes : Bytes} {m : Message} (h : c.unpack bytes = .ok (m, c')) :
    c.Quietly c' := by
  rcases unpack_cases h with ⟨-, rfl⟩ | ⟨f, next, -, -, rfl⟩
  · exact .refl
  · exact .single (.stand c.phase c.path c.gone (some next))

theorem quietly_seated {destination : Address} {m : Message} {frame : Bytes} (a : Admission)
    (address : Address) (h : c.pack destination m = .ok (frame, c')) :
    c.Quietly (Relay.seated c' a address frame) := by
  have hsent : c.Quietly (c'.push (.binary frame)) := .single (.send h)
  have hseated := hsent.tail (.stand (.seated a address) c'.path c'.gone c'.expected)
  unfold Relay.seated
  dsimp only
  split
  · exact hseated
  · exact hseated.tail (.order nofun)

/-- Delivering passes on what waited and packs what is to be told, one after the other. The inbox is
cleared last, so until then all that is left to deliver still is in it. -/
theorem changes_deliverAll {R : Bytes → Prop} (deliveries : List Delivery) (c : Client)
    (h : ∀ frame, .relayed frame ∈ deliveries → .relayed frame ∈ c.inbox) :
    Relation.ReflTransGen (Change R) c (c.deliverAll deliveries).2 := by
  induction deliveries generalizing c with
  | nil => exact .single .clear
  | cons d rest ih =>
    cases d with
    | relayed frame =>
      have hrelease : Change R c (c.push (.binary frame)) := .release (h frame (.head rest))
      exact .head hrelease (ih _ fun f hf => h f (.tail _ hf))
    | notice m =>
      rw [deliverAll]
      cases hsend : c.send m with
      | error e => exact .single .clear
      | ok c' =>
        obtain ⟨-, frame, c₁, hpack, rfl⟩ := send_eq_ok.mp hsend
        have hinbox : (c₁.push (.binary frame)).inbox = c.inbox := by
          obtain ⟨-, -, -, -, -, -, -, -, rfl⟩ := pack_eq_ok.mp hpack
          rfl
        refine .head (.quiet (.send hpack)) (ih _ fun f hf => ?_)
        rw [hinbox]
        exact h f (.tail _ hf)

end Client

/-! ## Changes of all clients -/

namespace Relay

/-- From one relay to another each client only changes, in some of the given ways, and none comes. -/
structure Changes (S : ClientId → Client → Client → Prop) (r s : Relay) : Prop where
  client : ∀ id c, r.client? id = some c →
    ∃ c', s.client? id = some c' ∧ Relation.ReflTransGen (S id) c c'
  none : ∀ id, r.client? id = none → s.client? id = none

/-- From one relay to another clients only change quietly. -/
abbrev Quietly : Relay → Relay → Prop := Changes fun _ => Client.Quiet

variable {S S' : ClientId → Client → Client → Prop} {r s t : Relay} {id : ClientId} {c c' : Client}

theorem Changes.of_clients (h : s.clients = r.clients) : Changes S r s := by
  have hclient : ∀ id, s.client? id = r.client? id := fun id => by rw [client?, h, client?]
  exact ⟨fun id c hc => ⟨c, (hclient id).trans hc, .refl⟩, fun id hc => (hclient id).trans hc⟩

theorem Changes.refl (r : Relay) : Changes S r r := .of_clients rfl

theorem Changes.trans (h : Changes S r s) (h' : Changes S s t) : Changes S r t := by
  refine ⟨fun id c hc => ?_, fun id hc => h'.none id (h.none id hc)⟩
  obtain ⟨c', hc', hchanges⟩ := h.client id c hc
  obtain ⟨c'', hc'', hchanges'⟩ := h'.client id c' hc'
  exact ⟨c'', hc'', hchanges.trans hchanges'⟩

theorem Changes.mono (h : Changes S r s) (hS : ∀ id c c', S id c c' → S' id c c') :
    Changes S' r s := by
  refine ⟨fun id c hc => ?_, h.none⟩
  obtain ⟨c', hc', hchanges⟩ := h.client id c hc
  exact ⟨c', hc', Relation.ReflTransGen.mono (hS id) _ _ hchanges⟩

theorem changes_modifyClient {f : Client → Client}
    (h : ∀ c, r.client? id = some c → Relation.ReflTransGen (S id) c (f c)) :
    Changes S r (r.modifyClient id f) := by
  refine ⟨fun other c hc => ?_, fun other hc => by simp [client?_modifyClient, hc]⟩
  rw [client?_modifyClient]
  by_cases heq : id = other
  · subst heq
    exact ⟨f c, by simp [hc], h c hc⟩
  · exact ⟨c, by simp [heq, hc], .refl⟩

theorem changes_setClient (hc : r.client? id = some c) (h : Relation.ReflTransGen (S id) c c') :
    Changes S r (r.setClient id c') := by
  refine changes_modifyClient fun d hd => ?_
  cases hc.symm.trans hd
  exact h

theorem changes_update {f : Client → Except ProtocolError Client}
    (h : ∀ c c', f c = .ok c' → Relation.ReflTransGen (S id) c c') :
    Changes S r (r.update id f).2 := by
  rcases update_cases r id f with ⟨-, heq⟩ | ⟨c, e, -, -, heq⟩ | ⟨c, c', hc, hf, heq⟩
  · rw [heq]
    exact .refl r
  · rw [heq]
    exact .refl r
  · rw [heq]
    exact changes_setClient hc (h c c' hf)

/-! ## Quiet handlers -/

theorem quietly_count (r : Relay) (f : Metrics → Metrics) : r.Quietly (r.count f) := .of_clients rfl

theorem quietly_close (r : Relay) (id : ClientId) (code : CloseCode) : r.Quietly (r.close id code) :=
  changes_modifyClient fun _ _ => .single (.order nofun)

theorem quietly_fail (r : Relay) (id : ClientId) (e : ProtocolError) : r.Quietly (r.fail id e) := by
  unfold fail
  dsimp only
  split
  · exact (quietly_count r _).trans (quietly_close ..)
  · exact quietly_close ..

theorem quietly_displace (r : Relay) (id : ClientId) (displaced : Option ClientId) :
    r.Quietly (r.displace id displaced) := by
  unfold displace
  split
  · split
    · exact .refl r
    · exact quietly_close ..
  · exact .refl r

theorem quietly_refuse (r : Relay) (id : ClientId) (h : Header) : r.Quietly (r.refuse id h).2 := by
  rcases refuse_cases r id h with ⟨f, -, heq⟩ | ⟨c, e, -, -, heq⟩ |
    ⟨c, reply, c', f, hc, hpack, heq⟩
  · rw [heq]
    exact quietly_count r f
  · rw [heq]
    exact .refl r
  · rw [heq]
    exact (changes_setClient hc (.single (.send hpack))).trans (quietly_count _ f)

theorem quietly_handleClientAuth (r : Relay) (id : ClientId) (auth : ClientAuth) :
    r.Quietly (r.handleClientAuth id auth).2 := by
  obtain ⟨outcome, s, hs, heq⟩ := handleClientAuth_cases r id auth
  have hupdate : r.Quietly (r.update id fun c => c.authorize r.service auth).2 :=
    changes_update fun _ _ h => .single (Client.quiet_authorize h)
  rw [hs] at hupdate
  rcases heq with heq | heq
  · rw [heq]
    exact hupdate
  · rw [heq]
    exact hupdate.trans (.of_clients rfl)

theorem quietly_handleDropResponder (r : Relay) (c : Client) (responder : Address)
    (reason : Option CloseCode) : r.Quietly (r.handleDropResponder c responder reason).2 := by
  have hslots : r.Quietly (r.setSlots c.path ((r.slots c.path).del responder).2) :=
    .of_clients rfl
  rcases handleDropResponder_cases r c responder reason with ⟨-, heq⟩ | ⟨-, -, -, heq⟩ |
    ⟨other, f, -, -, -, heq⟩
  · rw [heq]
    exact .refl r
  · rw [heq]
    exact hslots
  · rw [heq]
    exact (hslots.trans (quietly_close ..)).trans (quietly_count ..)

theorem quietly_onLivePath (hc : r.client? id = some c) : r.Quietly (r.onLivePath id c) := by
  have hclients := clients_livePath r c
  have hc' : (r.livePath c).2.client? id = some c := by
    rw [client?, hclients]
    exact hc
  exact (Changes.of_clients hclients).trans
    (changes_setClient hc' (.single (.stand c.phase _ c.gone c.expected)))

theorem quietly_departed (hc : r.client? id = some c) : r.Quietly (r.departed id c) := by
  have hgone : r.Quietly (r.setClient id { c with gone := true }) :=
    changes_setClient hc (.single (.stand c.phase c.path true c.expected))
  refine hgone.trans (.of_clients ?_)
  unfold departed
  dsimp only
  split <;> rfl

/-- A frame to another client is not heard, or refused, or relayed to whoever has its destination. -/
theorem quietly_handleRaw (r : Relay) (id : ClientId) (c : Client) (h : Header) (frame : Bytes) :
    r.Quietly (r.handleRaw id c h frame).2 ∨
    ∃ peer, (r.slots c.path).get c.id = some id ∧
      (r.slots c.path).get h.destination = some peer ∧
      (r.forward peer frame).2.Quietly (r.handleRaw id c h frame).2 := by
  unfold handleRaw
  split
  · next hslot =>
    cases hpeer : (r.slots c.path).get h.destination with
    | none =>
      have hpass : r.passOn c.path h frame = (false, r) := by simp only [passOn, hpeer]
      rw [hpass]
      exact .inl (quietly_refuse r id h)
    | some peer =>
      have hpass : r.passOn c.path h frame = r.forward peer frame := by simp only [passOn, hpeer]
      rw [hpass]
      refine .inr ⟨peer, hslot, rfl, ?_⟩
      split
      · next s hs =>
        rw [hs]
        exact .of_clients rfl
      · next s hs =>
        rw [hs]
        exact quietly_refuse s id h
  · exact .inl (.refl r)

/-! ## Frames that are handed over -/

/-- A frame is handed over by one client to another one: both have an address on one path, the sender
the frame's source and the receiver its destination, and they are of opposite roles. -/
structure HandsOver (r : Relay) (s d : ClientId) (path : PathId) (f : Frame) (sender receiver : Client) :
    Prop where
  distinct : s ≠ d
  sender_eq : r.client? s = some sender
  receiver_eq : r.client? d = some receiver
  authenticated : sender.isAuthenticated = true
  source : (r.slots path).get f.header.source = some s
  destination : (r.slots path).get f.header.destination = some d
  ne_server : f.header.source ≠ .server
  roles : ∃ role other, sender.role? = some role ∧ receiver.role? = some other ∧ role ≠ other

/-- A byte string is a frame that one client may relay to another one. -/
def Handover (r : Relay) (s d : ClientId) (frame : Bytes) : Prop :=
  ∃ path f sender receiver, Frame.parse frame = .ok f ∧ r.HandsOver s d path f sender receiver

theorem get_eq_some {path : PathId} {a : Address} (h : (r.slots path).get a = some id) :
    ∃ p, r.registry.path? path = some p ∧ p.slots.get a = some id := by
  unfold slots at h
  split at h
  · next p hp => exact ⟨p, hp, h⟩
  · simp at h

/-- Where slots and clients agree, whoever has an address is a client that is seated there. -/
theorem occupant_of_get (hr : r.census.Coherent) {path : PathId} {a : Address}
    (h : (r.slots path).get a = some id) : ∃ p c, r.client? id = some c ∧
      r.Occupant path p a c := by
  obtain ⟨p, hp, hget⟩ := get_eq_some h
  obtain ⟨c, hc, ho⟩ := occupant_of_coherent hr hp hget
  exact ⟨p, c, hc, ho⟩

theorem unpack_raw {frame bytes : Bytes} {h : Header}
    (hu : c.unpack bytes = .ok (.raw h frame, c')) : ∃ f, Frame.parse bytes = .ok f ∧ h = f.header ∧
      frame = bytes ∧ c' = c ∧ f.header.source = c.id ∧ c.mayReach f.header.destination.kind = true := by
  obtain ⟨f, hparse, hsource, ⟨-, next, -, hm, -⟩ | ⟨-, hreach, hraw, rfl⟩⟩ :=
    Client.unpack_eq_ok.mp hu
  · exfalso
    -- Whatever is opened is read, and nothing is read as a frame to others.
    have hopen : ∀ g m, c.openSealed g = .ok m → ∀ h frame, m ≠ .raw h frame := by
      intro g m hg
      obtain ⟨plain, -, hread⟩ := bind_eq_ok.mp hg
      exact Message.read_ne_raw (ofCodec_eq_ok.mp hread)
    unfold Client.openPayload at hm
    split at hm
    · cases hm
    · exact hopen f _ hm h frame rfl
  · cases hraw
    exact ⟨f, hparse, rfl, rfl, rfl, hsource, hreach⟩

/-- Where slots and clients agree, whoever has the destination is one whom the sender may reach. -/
theorem handover_of_raw (hr : r.census.Coherent) (hc : r.client? id = some c) {frame bytes : Bytes}
    {h : Header} (hu : c.unpack bytes = .ok (.raw h frame, c'))
    (hslot : (r.slots c.path).get c.id = some id) {peer : ClientId}
    (hpeer : (r.slots c.path).get h.destination = some peer) : r.Handover id peer frame := by
  obtain ⟨f, hparse, rfl, rfl, -, hsource, hreach⟩ := unpack_raw hu
  -- Both were found by their addresses, so both are seated there.
  obtain ⟨p, hp, hget⟩ := get_eq_some hslot
  obtain ⟨sender, hs, hsender⟩ := occupant_of_coherent hr hp hget
  cases hc.symm.trans hs
  obtain ⟨q, hq, hget'⟩ := get_eq_some hpeer
  obtain ⟨receiver, hd, hreceiver⟩ := occupant_of_coherent hr hq hget'
  obtain ⟨other, hother, hkind⟩ := Option.map_eq_some_iff.mp hreceiver.role
  simp only [Client.mayReach, Bool.and_eq_true, Option.any_eq_true, decide_eq_true_eq] at hreach
  obtain ⟨hauth, role, hrole, hne⟩ := hreach
  have hroles : role ≠ other := by
    rintro rfl
    exact hne hkind
  refine ⟨c.path, f, c, receiver, hparse, ?_, hc, hd, hauth, ?_, hpeer, ?_, role, other, hrole,
    hother, hroles⟩
  · rintro rfl
    cases hc.symm.trans hd
    exact hroles (Option.some.inj (hrole.symm.trans hother))
  · rw [hsource]
    exact hslot
  · rw [hsource]
    exact hsender.ne_server

/-- **A frame is relayed once.** A frame that is received changes clients quietly, or it is relayed to
one client to whom its sender hands it over, and then clients change quietly. -/
theorem quietly_received (hr : r.census.Coherent) (id : ClientId) (frame : Bytes) :
    r.Quietly (r.received id frame).2 ∨
    ∃ peer, r.Handover id peer frame ∧ (r.forward peer frame).2.Quietly (r.received id frame).2 := by
  rcases received_cases r id frame with ⟨outcome, heq⟩ | ⟨c, m, c', hc, hu, heq⟩
  · rw [heq]
    exact .inl (.refl r)
  · have hset : r.Quietly (r.setClient id c') := changes_setClient hc (Client.quietly_unpack hu)
    rw [heq]
    cases m with
    | clientHello key =>
      exact .inl (hset.trans (changes_update fun _ _ h => .single (Client.quiet_introduce h)))
    | clientAuth auth => exact .inl (hset.trans (quietly_handleClientAuth ..))
    | dropResponder responder reason => exact .inl (hset.trans (quietly_handleDropResponder ..))
    | raw h f =>
      obtain ⟨-, -, -, rfl, rfl, -⟩ := unpack_raw hu
      rw [setClient_eq_self hc]
      rcases quietly_handleRaw r id c' h f with hquiet | ⟨peer, hslot, hpeer, hquiet⟩
      · exact .inl hquiet
      · exact .inr ⟨peer, handover_of_raw hr hc hu hslot hpeer, hquiet⟩
    | _ => exact .inl hset

/-! ## Every handler -/

section

variable {R : ClientId → Bytes → Prop}

/-- From one relay to another clients only change, and the frames of `R` are relayed. -/
abbrev Relays (R : ClientId → Bytes → Prop) : Relay → Relay → Prop :=
  Changes fun id => Client.Change (R id)

theorem Changes.relays (h : r.Quietly s) : Relays R r s :=
  h.mono fun _ _ _ => .quiet

theorem relays_forward {frame : Bytes} (h : R id frame) : Relays R r (r.forward id frame).2 := by
  unfold forward
  split
  · exact .refl r
  · next c hc =>
    apply changes_setClient hc
    split
    · next hempty => exact .single (.pass h (List.isEmpty_iff.mp hempty))
    · next hempty => exact .single (.queue h (by simpa using hempty))

theorem relays_notify (r : Relay) (id : ClientId) (m : Message) : Relays R r (r.notify id m) :=
  (changes_modifyClient fun _ _ => .single (.tell m)).trans (.of_clients rfl)

theorem relays_notifyAll (r : Relay) (ids : List ClientId) (m : Message) :
    Relays R r (r.notifyAll ids m) := by
  induction ids generalizing r with
  | nil => exact .refl r
  | cons id ids ih => exact (relays_notify r id m).trans (ih _)

theorem relays_announce (r : Relay) (path : PathId) (role : Role) (m : Message) :
    Relays R r (r.announce path role m) := by
  cases role <;> exact relays_notifyAll ..

theorem relays_settled (path : PathId) {a : Admission} {s : Seat} {frame : Bytes}
    (hc : r.client? id = some c) (h : c.Quietly (seated c' a s.address frame)) :
    Relays R r (r.settled path id c' a s frame) := by
  have hseated : Relays R r (r.setClient id (seated c' a s.address frame)) :=
    Changes.relays (changes_setClient hc h)
  have htold := hseated.trans (relays_announce _ path a.role (joined a.role s.address))
  have hrest : Quietly _ (r.settled path id c' a s frame) :=
    (quietly_count ..).trans (quietly_displace ..)
  exact htold.trans hrest.relays

theorem relays_answer (hc : r.client? id = some c) (a : Admission) (cookie : Cookie) :
    Relays R r (r.answer id c a cookie).2 := by
  have hlive : Relays R r (r.onLivePath id c) := (quietly_onLivePath hc).relays
  rcases answer_cases r id c a cookie with ⟨e, -, heq⟩ | ⟨s, r', e, hseat, -, heq⟩ |
    ⟨s, r', frame, c', hseat, hpack, heq⟩
  · rw [heq]
    exact hlive
  · obtain ⟨slots, rfl, -⟩ := seat_eq_ok hseat
    rw [heq]
    exact hlive.trans (.of_clients rfl)
  · obtain ⟨slots, rfl, -⟩ := seat_eq_ok hseat
    rw [heq]
    have hslots : Relays R (r.onLivePath id c)
        ((r.onLivePath id c).setSlots (r.livePath c).1 slots) := .of_clients rfl
    have hc' : ((r.onLivePath id c).setSlots (r.livePath c).1 slots).client? id =
        some { c with path := (r.livePath c).1 } := client?_onLivePath hc
    exact (hlive.trans hslots).trans
      (relays_settled _ hc' (Client.quietly_seated a s.address hpack))

theorem relays_sendServerAuth (r : Relay) (id : ClientId) : Relays R r (r.sendServerAuth id).2 := by
  rcases sendServerAuth_cases r id with ⟨outcome, heq⟩ | ⟨c, a, e, hc, -, -, -, heq⟩
  · rw [heq]
    exact .refl r
  · rw [heq]
    exact relays_answer hc a e.cookie

theorem relays_disconnected (r : Relay) (id : ClientId) : Relays R r (r.disconnected id).2 := by
  rcases disconnected_cases r id with ⟨-, heq⟩ | ⟨c, outcome, hc, -, heq⟩ |
    ⟨c, role, outcome, hc, -, -, -, heq⟩
  · rw [heq]
    exact .refl r
  · rw [heq]
    exact (quietly_departed hc).relays
  · rw [heq]
    exact (quietly_departed hc).relays.trans (relays_announce ..)

theorem relays_runJob (r : Relay) (job : Job) : Relays R r (r.runJob job) := by
  cases job with
  | answer id =>
    obtain ⟨outcome, s, hs, heq⟩ := runJob_answer_cases r id
    have h : Relays R r (r.sendServerAuth id).2 := relays_sendServerAuth r id
    rw [hs] at h
    rcases heq with heq | ⟨e, heq⟩
    · rw [heq]
      exact h
    · rw [heq]
      exact h.trans (quietly_fail s id e).relays
  | deliver id =>
    have hdeliver : ∀ c, r.client? id = some c → Relays R r (r.setClient id c.deliverInbox.2) :=
      fun c hc => changes_setClient hc (Client.changes_deliverAll c.inbox c fun _ hf => hf)
    rcases runJob_deliver_cases r id with heq | ⟨c, hc, heq | ⟨e, heq⟩⟩
    · rw [heq]
      exact .refl r
    · rw [heq]
      exact hdeliver c hc
    · rw [heq]
      exact (hdeliver c hc).trans (quietly_fail _ id e).relays

end

/-- **Steps change clients.** Unless a connection is accepted, no client comes, and the clients that
there are only change. Only a frame that is received is relayed, and only to one to whom its sender
hands it over. -/
theorem relays_perform (hr : r.census.Coherent) (a : Action)
    (ha : ∀ key subprotocol draw, a ≠ .accept key subprotocol draw) :
    Relays (fun d f => ∃ s, a = .receive s f ∧ r.Handover s d f) r (r.perform a) := by
  cases a with
  | accept key subprotocol draw => exact absurd rfl (ha key subprotocol draw)
  | greet id => exact Changes.relays (changes_update fun _ _ => Client.quietly_greet)
  | receive id frame =>
    rcases quietly_received hr id frame with hquiet | ⟨peer, hhandover, hquiet⟩
    · exact hquiet.relays
    · exact (relays_forward ⟨id, rfl, hhandover⟩).trans hquiet.relays
  | unpack id frame =>
    refine Changes.relays (changes_update fun c c' h => ?_)
    obtain ⟨result, hu, rfl⟩ := map_eq_ok.mp h
    exact Client.quietly_unpack hu
  | pack id destination m =>
    refine Changes.relays (changes_update fun c c' h => ?_)
    obtain ⟨result, hpack, rfl⟩ := map_eq_ok.mp h
    exact .single (.pack hpack)
  | send id m =>
    exact Changes.relays (changes_update fun _ _ h => .single (Client.quiet_send h))
  | answer id => exact relays_sendServerAuth r id
  | disconnect id => exact relays_disconnected r id
  | runJob place =>
    simp only [perform]
    split
    · next job jobs _ =>
      have hjobs : r.Quietly { r with jobs := jobs } := .of_clients rfl
      exact hjobs.relays.trans (relays_runJob _ job)
    · exact .refl r
  | fail id e => exact (quietly_fail r id e).relays
  | close id code => exact (quietly_close r id code).relays
  | collect id => exact changes_modifyClient fun _ _ => .single .collect
  | hangUp id => exact changes_modifyClient fun _ _ => .single .hangUp

end Relay

end Rendezvous
