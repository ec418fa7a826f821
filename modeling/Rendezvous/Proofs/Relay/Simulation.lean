import Rendezvous.Proofs.Client.State
import Rendezvous.Proofs.Relay.Run
import Rendezvous.Proofs.Relay.Steps
import Rendezvous.Relay.State

/-!
# Relays, field by field

A relay whose clients are told field by field (`Relay.state`) is a relay of loose fields, on which the
handlers are written once more. Both do the same: one equation for each handler, of any relay at all, says that
the handler on fields, started at the fields, ends at the fields of where the other handler ends, with the same
outcome. So the runs of both go together (`state_run`), and what holds of all clients in runs of relays holds
of the fields.

* **`RelayState.run`** — runs over loose fields.
* **`Relay.state`** — the fields of a relay.
* **`state_perform`**, **`state_run`** — a step, and a run.
-/

namespace Rendezvous

namespace RelayState

/-- The relay after an action. -/
def perform (r : RelayState) : Action → RelayState
  | .accept key subprotocol draw => (r.accept key subprotocol draw).2
  | .greet id => (r.update id ClientState.greet).2
  | .receive id frame => (r.received id frame).2
  | .unpack id frame => (r.update id fun st => Prod.snd <$> st.unpack frame).2
  | .pack id destination m => (r.update id fun st => Prod.snd <$> st.pack destination m).2
  | .send id m => (r.update id fun st => st.send m).2
  | .answer id => (r.sendServerAuth id).2
  | .disconnect id => (r.disconnected id).2
  | .runJob place =>
    match r.jobs.takeAt place with
    | some (job, jobs) => { r with jobs := jobs }.runJob job
    | none => r
  | .fail id e => r.fail id e
  | .close id code => r.close id code
  | .collect id => r.modifyClient id fun st => { st with outbox := st.outbox.drain.2 }
  | .hangUp id => r.modifyClient id fun st => { st with outbox := st.outbox.dropWriter }

/-- The relay after some actions, in their order. -/
def run (r : RelayState) (actions : List Action) : RelayState :=
  actions.foldl perform r

end RelayState

namespace Relay

variable {r : Relay} {id : ClientId} {c : Client}

/-- A relay, with its clients field by field. -/
def state (r : Relay) : RelayState where
  service := r.service
  metrics := r.metrics
  nextConnection := r.nextConnection
  registry := r.registry
  clients := r.clients.map Client.state
  jobs := r.jobs

/-! ## Clients and paths -/

theorem client?_state (r : Relay) (id : ClientId) :
    r.state.client? id = (r.client? id).map Client.state :=
  Array.getElem?_map

theorem state_modifyClient (r : Relay) (id : ClientId) {f : Client → Client}
    {g : ClientState → ClientState} (h : ∀ c, g c.state = (f c).state) :
    r.state.modifyClient id g = (r.modifyClient id f).state := by
  have hclients : (r.clients.map Client.state).modify id.index g =
      (r.clients.modify id.index f).map Client.state := by
    refine Array.ext_getElem? fun i => ?_
    rw [Array.getElem?_modify, Array.getElem?_map, Array.getElem?_map, Array.getElem?_modify]
    split
    · cases r.clients[i]? with
      | none => rfl
      | some c => exact congrArg some (h c)
    · rfl
  unfold RelayState.modifyClient
  rw [show r.state.clients = r.clients.map Client.state from rfl, hclients]
  rfl

theorem state_setClient (r : Relay) (id : ClientId) (c : Client) :
    r.state.setClient id c.state = (r.setClient id c).state :=
  state_modifyClient r id fun _ => rfl

theorem state_update (r : Relay) (id : ClientId) {f : Client → Except ProtocolError Client}
    {g : ClientState → Except ProtocolError ClientState} (h : ∀ c, g c.state = (f c).map Client.state) :
    r.state.update id g = ((r.update id f).1, (r.update id f).2.state) := by
  unfold RelayState.update update
  rw [client?_state]
  cases r.client? id with
  | none => rfl
  | some c =>
    dsimp only [Option.map_some]
    rw [h c]
    cases f c with
    | error e => rfl
    | ok c' => exact congrArg (Prod.mk _) (state_setClient r id c')

theorem state_count (r : Relay) (f : Metrics → Metrics) : r.state.count f = (r.count f).state := rfl

theorem state_slots (r : Relay) (path : PathId) : r.state.slots path = r.slots path := rfl

theorem state_setSlots (r : Relay) (path : PathId) (slots : Slots ClientId) :
    r.state.setSlots path slots = (r.setSlots path slots).state := rfl

theorem state_pathFor (r : Relay) (key : PublicKey) :
    r.state.pathFor key = ((r.pathFor key).1, (r.pathFor key).2.state) := rfl

theorem state_accept (r : Relay) (key : PublicKey) (subprotocol : String) (draw : Draw) :
    r.state.accept key subprotocol draw =
      ((r.accept key subprotocol draw).1, (r.accept key subprotocol draw).2.state) := by
  unfold RelayState.accept accept
  simp only [state_pathFor]
  generalize r.pathFor key = found
  obtain ⟨path, r⟩ := found
  simp only [state, numberConnection, RelayState.numberConnection, Array.map_push, Array.size_map]
  rfl

/-! ## Reaching clients -/

theorem state_close (r : Relay) (id : ClientId) (code : CloseCode) :
    r.state.close id code = (r.close id code).state :=
  state_modifyClient r id fun _ => rfl

theorem state_fail (r : Relay) (id : ClientId) (e : ProtocolError) :
    r.state.fail id e = (r.fail id e).state := by
  unfold RelayState.fail fail
  split
  · exact state_close (r.count fun m => { m with protocolErrors := m.protocolErrors + 1 }) id e.closeCode
  · exact state_close r id e.closeCode

theorem state_notify (r : Relay) (id : ClientId) (m : Message) :
    r.state.notify id m = (r.notify id m).state := by
  unfold RelayState.notify notify
  rw [state_modifyClient r id (f := fun c => { c with inbox := c.inbox ++ [.notice m] }) fun _ => rfl]
  rfl

theorem state_notifyAll (r : Relay) (ids : List ClientId) (m : Message) :
    r.state.notifyAll ids m = (r.notifyAll ids m).state := by
  induction ids generalizing r with
  | nil => rfl
  | cons id rest ih =>
    have hstep := ih (r.notify id m)
    rw [← state_notify] at hstep
    exact hstep

theorem state_forward (r : Relay) (id : ClientId) (frame : Bytes) :
    r.state.forward id frame = ((r.forward id frame).1, (r.forward id frame).2.state) := by
  unfold RelayState.forward forward
  rw [client?_state]
  cases r.client? id with
  | none => rfl
  | some c =>
    dsimp only [Option.map_some]
    rw [← state_setClient, Client.state_inbox]
    split <;> rfl

/-! ## The server's answer -/

theorem state_livePath (r : Relay) (c : Client) :
    r.state.livePath c.state = ((r.livePath c).1, (r.livePath c).2.state) := by
  unfold RelayState.livePath livePath
  rw [Client.state_path, show r.state.registry = r.registry from rfl]
  cases r.registry.path? c.path with
  | none => rfl
  | some p => cases hp : p.orphan <;> simp only [hp] <;> rfl

theorem state_seat (r : Relay) (path : PathId) (id : ClientId) (role : Role) :
    r.state.seat path id role = (r.seat path id role).map fun s => (s.1, s.2.state) := by
  cases role with
  | initiator => rfl
  | responder =>
    unfold RelayState.seat seat
    rw [state_slots]
    cases (r.slots path).add id <;> rfl

theorem state_vacate (r : Relay) (path : PathId) (address : Address) (id : ClientId) :
    r.state.vacate path address id = ((r.vacate path address id).1, (r.vacate path address id).2.state) :=
  rfl

theorem state_otherSide (r : Relay) (path : PathId) (role : Role) :
    r.state.otherSide path role = r.otherSide path role := by
  cases role <;> rfl

theorem state_announce (r : Relay) (path : PathId) (role : Role) (m : Message) :
    r.state.announce path role m = (r.announce path role m).state := by
  cases role <;> exact state_notifyAll ..

theorem state_displace (r : Relay) (id : ClientId) (displaced : Option ClientId) :
    r.state.displace id displaced = (r.displace id displaced).state := by
  cases displaced with
  | none => rfl
  | some other =>
    unfold RelayState.displace displace
    dsimp only
    split
    · rfl
    · exact state_close r other .dropByInitiator

/-- Pings are set up as the client wished when it was admitted. -/
theorem state_seated {a : Admission} (h : c.phase = .admitted a) (address : Address) (frame : Bytes) :
    c.state.seated address frame = (seated c a address frame).state := by
  have hping : c.state.pingInterval = a.pingInterval := by
    simp only [Client.state, h]
    rfl
  have hseated : { c.state with id := address, authenticated := true, handshake := .serverAuth } =
      { c with phase := .seated a address }.state := by
    simp only [Client.state, h]
    rfl
  unfold ClientState.seated seated
  rw [hseated]
  have hpush : ({ c with phase := .seated a address }.state.push (.binary frame)).pingInterval = a.pingInterval := rfl
  dsimp only
  rw [hpush]
  by_cases hzero : a.pingInterval = 0
  · rw [if_pos hzero, if_neg (by rw [hzero]; decide)]
    rfl
  · rw [if_neg hzero, if_pos (UInt32.pos_iff_ne_zero.mpr hzero)]
    rfl

theorem state_answer {a : Admission} (h : c.phase = .admitted a) (r : Relay) (id : ClientId)
    (cookie : Cookie) :
    r.state.answer id c.state a.role cookie =
      ((r.answer id c a cookie).1, (r.answer id c a cookie).2.state) := by
  unfold RelayState.answer answer
  rw [state_livePath]
  generalize r.livePath c = live
  obtain ⟨path, r⟩ := live
  have hmoved : { c.state with path := path } = { c with path := path }.state := rfl
  have hphase : { c with path := path }.phase = .admitted a := h
  -- From here on the client is on the live path, and both sides pack for it there.
  dsimp only
  rw [hmoved, state_setClient, state_seat]
  generalize { c with path := path } = c at hphase
  cases (r.setClient id c).seat path id a.role with
  | error e => rfl
  | ok taken =>
    obtain ⟨s, r⟩ := taken
    dsimp only [Except.map]
    rw [state_otherSide, Client.state_pack]
    cases hpacked : c.pack s.address (.serverAuth ⟨cookie, r.otherSide path a.role⟩) with
    | error e => rfl
    | ok packed =>
      obtain ⟨next, -, heq⟩ := Client.eq_of_pack hpacked
      have hphase' : packed.2.phase = .admitted a := by rw [heq, hphase]
      dsimp only [Except.map]
      rw [state_seated hphase', state_setClient, state_announce, state_count, state_displace]

theorem state_sendServerAuth (r : Relay) (id : ClientId) :
    r.state.sendServerAuth id = ((r.sendServerAuth id).1, (r.sendServerAuth id).2.state) := by
  unfold RelayState.sendServerAuth sendServerAuth
  rw [client?_state]
  cases r.client? id with
  | none => rfl
  | some c =>
    dsimp only [Option.map_some]
    rw [Client.state_gone, Client.state_handshake]
    split
    · rfl
    · cases hphase : c.phase with
      | admitted a =>
        have hrole : c.state.role = some a.role := by
          simp only [Client.state, hphase]
          rfl
        have hadmitted : ¬ ((Phase.admitted a).stage ≠ .clientAuth) := not_not_intro rfl
        rw [if_neg hadmitted, hrole, Client.state_cookieIn]
        cases c.expected with
        | none => rfl
        | some e => exact state_answer hphase r id e.cookie
      | _ => rfl

/-! ## Frames of clients -/

theorem state_handleClientAuth (r : Relay) (id : ClientId) (auth : ClientAuth) :
    r.state.handleClientAuth id auth =
      ((r.handleClientAuth id auth).1, (r.handleClientAuth id auth).2.state) := by
  unfold RelayState.handleClientAuth handleClientAuth
  rw [show r.state.service = r.service from rfl, state_update r id fun c => c.state_authorize r.service auth]
  generalize r.update id _ = result
  obtain ⟨_ | ⟨⟩, r'⟩ := result <;> rfl

theorem state_handleDropResponder (r : Relay) (c : Client) (responder : Address)
    (reason : Option CloseCode) :
    r.state.handleDropResponder c.state responder reason =
      ((r.handleDropResponder c responder reason).1,
        (r.handleDropResponder c responder reason).2.state) := by
  unfold RelayState.handleDropResponder handleDropResponder
  rw [Client.state_authenticated, Client.state_role, Client.state_path, state_slots]
  -- What is asked here is whether the client is refused, and there whether it is heard.
  have hmay : (¬ c.isAuthenticated = true ∨ c.role? ≠ some .initiator) ↔
      ¬ (c.isAuthenticated && c.role? == some .initiator) = true := by
    cases c.isAuthenticated <;> simp
  simp only [hmay, ite_not]
  split
  · generalize (r.slots c.path).del responder = deleted
    obtain ⟨_ | other, slots⟩ := deleted
    · rfl
    · dsimp only
      rw [state_setSlots, state_close]
      rfl
  · rfl

theorem state_passOn (r : Relay) (path : PathId) (h : Header) (frame : Bytes) :
    r.state.passOn path h frame = ((r.passOn path h frame).1, (r.passOn path h frame).2.state) := by
  unfold RelayState.passOn passOn
  rw [state_slots]
  cases (r.slots path).get h.destination with
  | none => rfl
  | some peer => exact state_forward r peer frame

theorem state_refuse (r : Relay) (id : ClientId) (h : Header) :
    r.state.refuse id h = ((r.refuse id h).1, (r.refuse id h).2.state) := by
  unfold RelayState.refuse refuse RelayState.update update
  rw [client?_state]
  cases r.client? id with
  | none => rfl
  | some c =>
    dsimp only [Option.map_some]
    rw [Client.state_id, Client.state_pack]
    cases c.pack c.id (.sendError h.frameId) with
    | error e => rfl
    | ok packed =>
      have hqueued := state_setClient r id (packed.2.push (.binary packed.1))
      have hcounted := congrArg
        (fun r => RelayState.count r fun m => { m with sendErrors := m.sendErrors + 1 }) hqueued
      exact congrArg (Prod.mk _) hcounted

theorem state_handleRaw (r : Relay) (id : ClientId) (c : Client) (h : Header) (frame : Bytes) :
    r.state.handleRaw id c.state h frame =
      ((r.handleRaw id c h frame).1, (r.handleRaw id c h frame).2.state) := by
  unfold RelayState.handleRaw handleRaw
  rw [Client.state_path, Client.state_id, state_slots, state_passOn]
  split
  · generalize r.passOn c.path h frame = passed
    obtain ⟨_ | _, r'⟩ := passed
    · exact state_refuse r' id h
    · rfl
  · rfl

theorem state_handle (r : Relay) (id : ClientId) (c : Client) (m : Message) :
    r.state.handle id c.state m = ((r.handle id c m).1, (r.handle id c m).2.state) := by
  cases m with
  | clientHello key => exact state_update r id fun c => c.state_introduce key
  | clientAuth auth => exact state_handleClientAuth r id auth
  | dropResponder responder reason => exact state_handleDropResponder r c responder reason
  | raw h frame => exact state_handleRaw r id c h frame
  | _ => rfl

theorem state_received (r : Relay) (id : ClientId) (frame : Bytes) :
    r.state.received id frame = ((r.received id frame).1, (r.received id frame).2.state) := by
  unfold RelayState.received received
  rw [client?_state]
  cases r.client? id with
  | none => rfl
  | some c =>
    dsimp only [Option.map_some]
    rw [c.state_unpack frame]
    cases c.unpack frame with
    | error e => rfl
    | ok read =>
      dsimp only [Except.map]
      rw [state_setClient]
      exact state_handle (r.setClient id read.2) id read.2 read.1

theorem state_disconnected (r : Relay) (id : ClientId) :
    r.state.disconnected id = ((r.disconnected id).1, (r.disconnected id).2.state) := by
  unfold RelayState.disconnected disconnected
  rw [client?_state]
  cases r.client? id with
  | none => rfl
  | some c =>
    have hgone : { c.state with gone := true } = { c with gone := true }.state := rfl
    dsimp only [Option.map_some]
    rw [hgone, Client.state_authenticated, Client.state_role, Client.state_path, Client.state_id,
      state_setClient]
    -- What was done to the relay so far is the same on both sides, and matters no more.
    generalize r.setClient id { c with gone := true } = r
    have hremoved : (if c.isAuthenticated = true then r.state.vacate c.path c.id id else (false, r.state)) =
        ((if c.isAuthenticated = true then r.vacate c.path c.id id else (false, r)).1,
          (if c.isAuthenticated = true then r.vacate c.path c.id id else (false, r)).2.state) := by
      split
      · exact state_vacate r c.path c.id id
      · rfl
    rw [hremoved]
    generalize (if c.isAuthenticated = true then r.vacate c.path c.id id else (false, r)) = left
    obtain ⟨removed, r⟩ := left
    have hpruned : { r.state with registry := (r.state.registry.prune c.path).2 } =
        { r with registry := (r.registry.prune c.path).2 }.state := rfl
    dsimp only
    rw [hpruned]
    generalize { r with registry := (r.registry.prune c.path).2 } = r
    cases removed with
    | false => cases c.role? <;> rfl
    | true =>
      cases c.role? with
      | none => rfl
      | some role =>
        cases role with
        | initiator => exact congrArg (Prod.mk _) (state_announce ..)
        | responder =>
          dsimp only
          rw [state_slots]
          cases (r.slots c.path).initiator with
          | none => rfl
          | some other => exact congrArg (Prod.mk _) (state_announce ..)

/-! ## Jobs -/

theorem state_runJob (r : Relay) (job : Job) : r.state.runJob job = (r.runJob job).state := by
  cases job with
  | answer id =>
    unfold RelayState.runJob runJob
    dsimp only
    rw [state_sendServerAuth]
    generalize r.sendServerAuth id = result
    obtain ⟨e | ⟨⟩, r'⟩ := result
    · exact state_fail r' id e
    · rfl
  | deliver id =>
    unfold RelayState.runJob runJob
    dsimp only
    rw [client?_state]
    cases r.client? id with
    | none => rfl
    | some c =>
      dsimp only [Option.map_some]
      rw [c.state_deliverInbox]
      generalize c.deliverInbox = result
      obtain ⟨_ | e, c'⟩ := result
      · exact state_setClient r id c'
      · dsimp only
        rw [state_setClient]
        exact state_fail (r.setClient id c') id e

/-! ## Steps and runs -/

/-- **One step.** -/
theorem state_perform (r : Relay) (act : Action) : r.state.perform act = (r.perform act).state := by
  have hupdate : ∀ id f g, (∀ c, g (Client.state c) = (f c).map Client.state) →
      (r.state.update id g).2 = (r.update id f).2.state :=
    fun id f g h => congrArg Prod.snd (state_update r id h)
  cases act with
  | accept key subprotocol draw => exact congrArg Prod.snd (state_accept r key subprotocol draw)
  | greet id => exact hupdate id _ _ Client.state_greet
  | receive id frame => exact congrArg Prod.snd (state_received r id frame)
  | unpack id frame =>
    refine hupdate id _ _ fun c => ?_
    rw [c.state_unpack frame]
    cases c.unpack frame <;> rfl
  | pack id destination m =>
    refine hupdate id _ _ fun c => ?_
    rw [c.state_pack destination m]
    cases c.pack destination m <;> rfl
  | send id m => exact hupdate id _ _ fun c => c.state_send m
  | answer id => exact congrArg Prod.snd (state_sendServerAuth r id)
  | disconnect id => exact congrArg Prod.snd (state_disconnected r id)
  | runJob place =>
    unfold RelayState.perform perform
    dsimp only
    rw [show r.state.jobs = r.jobs from rfl]
    cases r.jobs.takeAt place with
    | none => rfl
    | some taken => exact state_runJob { r with jobs := taken.2 } taken.1
  | fail id e => exact state_fail r id e
  | close id code => exact state_close r id code
  | collect | hangUp => exact state_modifyClient r _ fun _ => rfl

/-- **Whole runs.** -/
theorem state_run (r : Relay) (actions : List Action) :
    r.state.run actions = (r.run actions).state := by
  induction actions generalizing r with
  | nil => rfl
  | cons act rest ih =>
    have hrest := ih (r.perform act)
    rw [← state_perform] at hrest
    exact hrest

theorem state_new (service : Service) : (new service).state = .new service := by
  simp [state, new, RelayState.new]

end Relay

end Rendezvous
