import Rendezvous.Client.State
import Rendezvous.Proofs.Client.Steps

/-!
# Clients, field by field

A client whose phase says how far it got can be told field by field (`Client.state`). Each operation on loose
fields, started there, does what the operation on phases does: it gives the same frames, messages and errors,
and it leaves the fields of the client that the other leaves. Where an operation on fields asks for more than
one of them, the phase answers all questions at once, so these equations are by cases on the phase.

* **`Client.state`** — the fields of a client.
* **`state_unpack`**, **`state_pack`**, **`state_send`**, **`state_deliverInbox`** — frames and deliveries.
* **`state_greet`**, **`state_introduce`**, **`state_authorize`** — the handshake.
-/

namespace Rendezvous

namespace Client

variable {c : Client}

/-- A client, field by field. -/
def state (c : Client) : ClientState where
  connectionId := c.connectionId
  subprotocol := c.subprotocol
  initiatorKey := c.initiatorKey
  path := c.path
  handshake := c.phase.stage
  id := c.phase.id
  role := c.phase.role?
  authenticated := c.phase.isAuthenticated
  clientKey := c.phase.clientKey?
  session := c.session
  permanent := c.phase.permanent?
  cookieOut := c.cookie
  cookieIn := c.expected.map Expectation.cookie
  numberOut := c.nextNumber
  numberIn := c.expected.map Expectation.number
  pingInterval := (c.phase.admission?.map Admission.pingInterval).getD 0
  gone := c.gone
  inbox := c.inbox
  outbox := c.outbox

@[simp] theorem state_session (c : Client) : c.state.session = c.session := rfl
@[simp] theorem state_subprotocol (c : Client) : c.state.subprotocol = c.subprotocol := rfl
@[simp] theorem state_path (c : Client) : c.state.path = c.path := rfl
@[simp] theorem state_handshake (c : Client) : c.state.handshake = c.phase.stage := rfl
@[simp] theorem state_id (c : Client) : c.state.id = c.id := rfl
@[simp] theorem state_role (c : Client) : c.state.role = c.role? := rfl
@[simp] theorem state_authenticated (c : Client) : c.state.authenticated = c.isAuthenticated := rfl
@[simp] theorem state_cookieOut (c : Client) : c.state.cookieOut = c.cookie := rfl
@[simp] theorem state_cookieIn (c : Client) : c.state.cookieIn = c.expected.map Expectation.cookie := rfl
@[simp] theorem state_numberIn (c : Client) : c.state.numberIn = c.expected.map Expectation.number := rfl
@[simp] theorem state_gone (c : Client) : c.state.gone = c.gone := rfl
@[simp] theorem state_inbox (c : Client) : c.state.inbox = c.inbox := rfl

/-! ## Frames to the client -/

theorem state_pack (c : Client) (destination : Address) (m : Message) :
    c.state.pack destination m = (c.pack destination m).map fun p => (p.1, p.2.state) := by
  unfold ClientState.pack pack
  simp only [map_ite, map_bind_eq]
  rfl

theorem state_send (c : Client) (m : Message) : c.state.send m = (c.send m).map state := by
  unfold ClientState.send send
  rw [state_id, state_pack, state_authenticated]
  cases c.isAuthenticated with
  | false => rfl
  | true => cases c.pack c.id m <;> rfl

theorem state_deliverAll (c : Client) (inbox : List Delivery) :
    c.state.deliverAll inbox = ((c.deliverAll inbox).1, (c.deliverAll inbox).2.state) := by
  induction inbox generalizing c with
  | nil => rfl
  | cons delivery rest ih =>
    cases delivery with
    | relayed frame => exact ih (c.push (.binary frame))
    | notice m =>
      unfold ClientState.deliverAll deliverAll
      rw [state_send]
      cases c.send m with
      | error e => rfl
      | ok c' => exact ih c'

theorem state_deliverInbox (c : Client) :
    c.state.deliverInbox = (c.deliverInbox.1, c.deliverInbox.2.state) :=
  state_deliverAll c c.inbox

/-! ## Frames from the client -/

/-- Cookie and number are checked one after the other; a client that has been heard has both, and one that
has not has neither. -/
theorem state_checkHeader (c : Client) (h : Header) :
    (c.state.checkHeader h).map c.state.commit =
      (c.acceptHeader h).map fun next => { c with expected := some next }.state := by
  unfold ClientState.checkHeader ClientState.checkCookie ClientState.checkNumber acceptHeader
  rw [state_cookieIn, state_numberIn, state_cookieOut]
  cases hexpected : c.expected with
  | none =>
    dsimp only [Option.map_none]
    split
    · rfl
    · rw [pure_bind]
      split
      · rfl
      · rw [pure_bind]
        cases ofCodec h.number.next <;> rfl
  | some e =>
    have hcommit : ∀ next, c.state.commit ⟨none, some next⟩ =
        { c with expected := some ⟨e.cookie, next⟩ }.state := by
      intro next
      simp only [ClientState.commit, state, hexpected]
      rfl
    simp only [Option.map_some, ne_comm (a := h.cookie), ne_eq]
    split
    · rfl
    · rw [pure_bind]
      split
      · rfl
      · split
        · rfl
        · rw [pure_bind]
          cases ofCodec e.number.next with
          | error => rfl
          | ok next => exact congrArg Except.ok (hcommit next)

theorem state_openPayload (c : Client) (f : Frame) : c.state.openPayload f = c.openPayload f := by
  have hsealed : c.state.openSealed f = c.openSealed f := rfl
  unfold ClientState.openPayload openPayload
  rw [hsealed]
  obtain ⟨_, _, _, _, _, _, _, _, phase, _, _, _⟩ := c
  cases phase with
  | greeted =>
    -- The one phase at this stage and without a role, and so the one in which a plain hello is heard.
    cases Message.read f.payload with
    | error e => rfl
    | ok m => cases m <;> rfl
  | _ => rfl

theorem state_unpack (c : Client) (bytes : Bytes) :
    c.state.unpack bytes = (c.unpack bytes).map fun p => (p.1, p.2.state) := by
  have hreach : ∀ kind, c.state.mayReach kind = c.mayReach kind := fun _ => rfl
  unfold ClientState.unpack unpack
  cases ofCodec (Frame.parse bytes) with
  | error e => rfl
  | ok f =>
    simp only [ok_bind, state_id, hreach, ne_eq, Address.kind_eq_server]
    split
    · rfl
    · split
      · rfl
      · by_cases hserver : f.header.destination = .server
        · have hheader := state_checkHeader c f.header
          rw [if_neg (Decidable.not_not.mpr hserver), if_pos hserver, state_openPayload]
          cases hnext : c.acceptHeader f.header with
          | error e =>
            rw [hnext] at hheader
            rw [eq_error_of_map hheader]
            rfl
          | ok next =>
            rw [hnext] at hheader
            obtain ⟨pending, hpending, hcommit⟩ := map_eq_ok.mp hheader
            rw [hpending]
            cases c.openPayload f with
            | error e => rfl
            | ok m => exact congrArg (fun st => Except.ok (m, st)) hcommit
        · rw [if_pos hserver, if_neg hserver]
          rfl

/-! ## The handshake -/

theorem state_greet (c : Client) : c.state.greet = c.greet.map state := by
  unfold ClientState.greet greet
  rw [state_handshake, state_session, state_pack]
  cases hphase : c.phase with
  | fresh =>
    cases hpacked : c.pack .server (.serverHello c.session.publicKey) with
    | error e => rfl
    | ok packed =>
      obtain ⟨next, -, heq⟩ := eq_of_pack hpacked
      -- Before and after the greeting nothing is known of the client, so only the stage changes.
      have hgreeted : { packed.2.state with handshake := .serverHello } =
          { packed.2 with phase := .greeted }.state := by
        simp only [heq, state, hphase]
        rfl
      exact congrArg (fun st => Except.ok (ClientState.push st (.binary packed.1))) hgreeted
  | _ =>
    have herror : ∀ t, c.state.unexpected t = c.unexpected t := fun _ => rfl
    rw [herror]
    rfl

theorem state_introduce (c : Client) (key : PublicKey) :
    c.state.introduce key = (c.introduce key).map state := by
  obtain ⟨_, _, _, _, _, _, _, _, phase, _, _, _⟩ := c
  cases phase <;> rfl

theorem state_claimedRole (c : Client) :
    c.state.claimedRole = match c.claimed? with
      | some (role, _) => .ok role
      | none => .error (c.unexpected .clientAuth) := by
  obtain ⟨_, _, _, _, _, _, _, _, phase, _, _, _⟩ := c
  cases phase with
  | admitted a | seated a =>
    obtain ⟨role, _, _, _⟩ := a
    cases role <;> rfl
  | _ => rfl

/-- Who introduced itself has its key; to the other one the key of its path is given. -/
theorem state_admitted {role : Role} {key : PublicKey} (h : c.claimed? = some (role, key))
    (permanent : KeyPair) (pingInterval : UInt32) :
    { c.state with
      clientKey := if role = .initiator then some c.state.initiatorKey else c.state.clientKey
      role := some role
      permanent := some permanent
      pingInterval := pingInterval
      handshake := .clientAuth } =
    { c with phase := .admitted ⟨role, key, permanent, pingInterval⟩ }.state := by
  rcases claimed?_eq_some.mp h with ⟨hphase, rfl, rfl⟩ | ⟨hphase, rfl⟩
  · simp only [state, hphase]
    rfl
  · simp only [state, hphase]
    rfl

theorem state_authorize (c : Client) (service : Service) (auth : ClientAuth) :
    c.state.authorize service auth = (c.authorize service auth).map state := by
  unfold ClientState.authorize authorize
  rw [state_claimedRole]
  cases hclaimed : c.claimed? with
  | none => rfl
  | some claim =>
    rw [state_cookieOut, state_subprotocol]
    simp only [ok_bind, pure_bind]
    split
    · rfl
    · split
      · rfl
      · cases service.keyFor auth.yourKey with
        | error e => rfl
        | ok pair => exact congrArg Except.ok (state_admitted hclaimed pair auth.pingInterval)

end Client

end Rendezvous
