import Rendezvous.Proofs.Relay.Progress
import Rendezvous.Proofs.Relay.Simulation

/-!
# Handshakes are consistent

Stage, role, address, keys, cookie and number of a client are fields of their own, which six handlers write:
some of them late, by a job or after the connection was torn down, and some after errors. No type keeps the
fields together, but what the handlers write does. The fields in a run are at all times those of clients with
phases (`state_run`), and a phase answers most questions about fields at once; what it leaves open was shown of
all clients in runs (`upright_run`).

* **`ClientState.Consistent`** — how stage, role, keys, address, cookie and number of a client go together.
* **`Client.Sane.consistent`** — the fields of a sane client go together.
* **`progress_run`** — what follows for runs: the fields fit, the stages only go forward, one answer is
  dispatched and one is sent at most, and the branches of the answer that miss something are never taken.
-/

namespace Rendezvous

/-- What is known about a client fits its stage. -/
structure ClientState.Consistent (st : ClientState) : Prop where
  unknown : st.handshake = .none ∨ st.handshake = .serverHello →
    st.role = none ∧ st.clientKey = none ∧ st.permanent = none
  introduced : st.handshake = .clientHello → st.role = some .responder ∧ st.clientKey.isSome = true
  proved : st.handshake = .clientAuth ∨ st.handshake = .serverAuth →
    st.role.isSome = true ∧ st.clientKey.isSome = true ∧ st.permanent.isSome = true ∧
      st.cookieIn.isSome = true
  authenticated : st.authenticated = true ↔ st.handshake = .serverAuth
  unaddressed : st.handshake ≠ .serverAuth → st.id = .server
  addressed : st.handshake = .serverAuth → st.role.map Role.addressKind = some st.id.kind
  paired : st.cookieIn.isSome = st.numberIn.isSome
  cookie_ne : ∀ cookie, st.cookieIn = some cookie → cookie ≠ st.cookieOut

theorem Client.Sane.consistent {c : Client} (h : c.Sane) : c.state.Consistent where
  unknown hstage := Phase.unknown hstage
  introduced hstage := Phase.of_clientHello hstage
  proved hstage := by
    obtain ⟨hrole, hkey, hpermanent, hadmission⟩ := Phase.proved hstage
    have hcookie := h.heard hadmission
    exact ⟨hrole, hkey, hpermanent, by rwa [state_cookieIn, Option.isSome_map]⟩
  authenticated := Phase.isAuthenticated_iff
  unaddressed hstage := Phase.id_of_unseated hstage
  addressed hstage := by
    obtain ⟨a, address, hphase, hrole, hid⟩ := Phase.of_serverAuth hstage
    have hkind := h.address a address hphase
    rw [state_role, state_id, role?, id, hrole, hid, Option.map_some, hkind]
  paired := by rw [state_cookieIn, state_numberIn, Option.isSome_map, Option.isSome_map]
  cookie_ne cookie hcookie := by
    obtain ⟨e, he, rfl⟩ := Option.map_eq_some_iff.mp hcookie
    exact h.cookie_ne e he

namespace RelayState

open Relay (state_new state_run client?_state)

variable {service : Service} {actions : List Action} {id : ClientId} {st : ClientState}

/-- The fields in a run are those of clients with phases. -/
theorem run_new (service : Service) (actions : List Action) :
    (new service).run actions = ((Relay.new service).run actions).state := by
  rw [← state_new, state_run]

theorem client?_run : ((new service).run actions).client? id = some st ↔
    ∃ c, ((Relay.new service).run actions).client? id = some c ∧ c.state = st := by
  rw [run_new, client?_state, Option.map_eq_some_iff]

theorem consistent_run (h : ((new service).run actions).client? id = some st) : st.Consistent := by
  obtain ⟨c, hc, rfl⟩ := client?_run.mp h
  exact ((Relay.upright_run service actions).sane hc).consistent

/-- Responders are those that once introduced themselves. -/
theorem responder_iff_run (h : ((new service).run actions).client? id = some st) :
    st.role = some .responder ↔ ∃ before after st', actions = before ++ after ∧
      ((new service).run before).client? id = some st' ∧ st'.handshake = .clientHello := by
  obtain ⟨c, hc, rfl⟩ := client?_run.mp h
  constructor
  · intro hrole
    obtain ⟨before, after, d, heq, hd, hstage⟩ := Relay.introduced_of_responder hc hrole
    exact ⟨before, after, d.state, heq, client?_run.mpr ⟨d, hd, rfl⟩, hstage⟩
  · rintro ⟨before, after, st', heq, hst', hstage⟩
    obtain ⟨d, hd, rfl⟩ := client?_run.mp hst'
    exact Relay.responder_of_introduced hc ⟨before, after, d, heq, hd, hstage⟩

/-- Stages go forward, and roles are for good. -/
theorem forward_run (h : ((new service).run actions).client? id = some st) (more : List Action) :
    ∃ st', ((new service).run (actions ++ more)).client? id = some st' ∧
      st.handshake.index ≤ st'.handshake.index ∧ ∀ role, st.role = some role → st'.role = some role := by
  obtain ⟨c, hc, rfl⟩ := client?_run.mp h
  obtain ⟨c', hc', hfollows⟩ := Relay.follows_run (Relay.coherent_run service actions) hc more
  rw [← Relay.run_append] at hc'
  exact ⟨c'.state, client?_run.mpr ⟨c', hc', rfl⟩, hfollows.index_le, hfollows.role⟩

/-- Who proved itself misses nothing that its answer needs. -/
theorem error_of_sendServerAuth_run {e : ProtocolError}
    (h : (((new service).run actions).sendServerAuth id).1 = .error e) :
    (∃ st, ((new service).run actions).client? id = some st ∧ st.handshake ≠ .clientAuth ∧
      e = .unexpectedMessage .serverAuth st.handshake) ∨
    e = .pathFull ∨ e = .overflowSentinel .outbound := by
  rw [run_new, Relay.state_sendServerAuth] at h
  rcases Relay.error_of_sendServerAuth (Relay.upright_run service actions) h with
    ⟨c, hc, hstage, rfl⟩ | hother
  · exact .inl ⟨c.state, client?_run.mpr ⟨c, hc, rfl⟩, hstage, rfl⟩
  · exact .inr hother

/-- **Handshakes go forward and are consistent.** Whatever happens to a relay, in whichever order, its clients
have the fields of clients with phases. What is known about each client fits its stage; the stage never goes
back, and a role is for good; and a client is a responder if and only if it once was at the stage of an
introduction. So a client is sent one answer at most, unless others come from outside, and one job to answer it
is dispatched at most. Who is to be answered and has proved itself misses neither role nor cookie nor key: what
can fail is that the path is full, or that no number is left. -/
theorem progress_run (service : Service) (actions : List Action) (id : ClientId) :
    (new service).run actions = ((Relay.new service).run actions).state ∧
    (∀ st, ((new service).run actions).client? id = some st → st.Consistent ∧
      (st.role = some .responder ↔ ∃ before after st', actions = before ++ after ∧
        ((new service).run before).client? id = some st' ∧ st'.handshake = .clientHello) ∧
      ∀ more, ∃ st', ((new service).run (actions ++ more)).client? id = some st' ∧
        st.handshake.index ≤ st'.handshake.index ∧
        ∀ role, st.role = some role → st'.role = some role) ∧
    ((∀ auth, Action.send id (.serverAuth auth) ∉ actions) →
      (ledger ((Relay.new service).history actions id)).sent.countP Entry.isServerAuth ≤ 1) ∧
    ((Relay.new service).dispatched actions).count (.answer id) ≤ 1 ∧
    (∀ e, (((new service).run actions).sendServerAuth id).1 = .error e →
      (∃ st, ((new service).run actions).client? id = some st ∧ st.handshake ≠ .clientAuth ∧
        e = .unexpectedMessage .serverAuth st.handshake) ∨
      e = .pathFull ∨ e = .overflowSentinel .outbound) :=
  ⟨run_new service actions,
    fun _ hst => ⟨consistent_run hst, responder_iff_run hst, forward_run hst⟩,
    Relay.answered_run service actions id,
    Relay.dispatched_run (Relay.coherent_new service) actions,
    fun _ => error_of_sendServerAuth_run⟩

end RelayState

end Rendezvous
