import Rendezvous.Proofs.Relay.Authentication
import Rendezvous.Proofs.Relay.Stretches
import Rendezvous.Proofs.Relay.Views

/-!
# How a handshake proceeds

Six handlers write what a client is in the handshake, and some of them run late: by a job, or after the
connection was torn down. Nevertheless the stage of a client only goes forward.

Two things are not said by the type of phases: that a client which proved itself was heard, so that there
is a cookie to answer with, and that its address is one of its role. The first holds because only a frame
that was just counted admits a client (`advances_perform`); the second is seen from the census, where
addresses are given out by one kind of move.

* **`Client.Sane`** — what the phase of a client does not say by itself; `upright_run` has it of all clients.
* **`advances_perform`** — an action introduces a client, admits it, or leaves it to settle.
* **`follows_run`** — stages go forward in runs, and roles are for good.
* **`answered_run`** — one answer is sent to a client at most.
* **`Relay.dispatched`** — the jobs that are dispatched in a run; `dispatched_run` has one answer among them.
* **`error_of_sendServerAuth`** — the branches of the answer that miss something are never taken.
-/

namespace Rendezvous

/-! ## What phases say -/

namespace Phase

variable {p : Phase}

theorem unknown (h : p.stage = .none ∨ p.stage = .serverHello) :
    p.role? = none ∧ p.clientKey? = none ∧ p.permanent? = none := by
  cases p with
  | fresh | greeted => exact ⟨rfl, rfl, rfl⟩
  | _ => simp [stage] at h

theorem of_clientHello (h : p.stage = .clientHello) :
    p.role? = some .responder ∧ p.clientKey?.isSome = true := by
  cases p with
  | introduced key => exact ⟨rfl, rfl⟩
  | _ => cases h

theorem proved (h : p.stage = .clientAuth ∨ p.stage = .serverAuth) :
    p.role?.isSome = true ∧ p.clientKey?.isSome = true ∧ p.permanent?.isSome = true ∧
      p.admission?.isSome = true := by
  cases p with
  | admitted a | seated a => exact ⟨rfl, rfl, rfl, rfl⟩
  | _ => simp [stage] at h

theorem isAuthenticated_iff : p.isAuthenticated = true ↔ p.stage = .serverAuth := by
  cases p <;> simp [isAuthenticated, stage]

theorem id_of_unseated (h : p.stage ≠ .serverAuth) : p.id = .server := by
  cases p with
  | seated a address => exact absurd rfl h
  | _ => rfl

theorem of_serverAuth (h : p.stage = .serverAuth) :
    ∃ a address, p = .seated a address ∧ p.role? = some a.role ∧ p.id = address := by
  cases p with
  | seated a address => exact ⟨a, address, rfl, rfl, rfl⟩
  | _ => cases h

end Phase

/-! ## What phases leave open -/

namespace Client

/-- What the phase of a client does not say by itself. -/
structure Sane (c : Client) : Prop where
  heard : c.phase.admission?.isSome = true → c.expected.isSome = true
  address : ∀ a address, c.phase = .seated a address → address.kind = a.role.addressKind
  cookie_ne : ∀ e, c.expected = some e → e.cookie ≠ c.cookie

/-- Only an acceptable frame changes what the next one has to carry. -/
theorem Step.expected_cases {service : Service} {c c' : Client} {es : List Event}
    (h : Step service c es c') :
    c'.expected = c.expected ∨ ∃ h next, c.acceptHeader h = .ok next ∧ c'.expected = some next := by
  cases h with
  | accept _ hnext => exact .inr ⟨_, _, hnext, rfl⟩
  | introduce h =>
    obtain ⟨-, rfl⟩ := introduce_eq_ok.mp h
    exact .inl rfl
  | authorize h =>
    obtain ⟨-, -, -, -, -, -, -, rfl⟩ := authorize_eq_ok.mp h
    exact .inl rfl
  | greet _ h | refuse _ h | pack h =>
    obtain ⟨next, -, rfl⟩ := eq_of_pack h
    exact .inl rfl
  | @answer a address auth seats frame c₁ _ h =>
    obtain ⟨next, -, rfl⟩ := eq_of_pack h
    obtain ⟨outbox, heq⟩ := Relay.seated_eq { c with nextNumber := next } a address frame
    rw [heq]
    exact .inl rfl
  | post h | serve _ h =>
    obtain ⟨next, -, rfl⟩ := eq_of_pack (sending_eq_ok.mp h).2
    exact .inl rfl
  | _ => exact .inl rfl

/-- The cookie of a client is settled by its first frame, and is not the server's. -/
structure Heard (c c' : Client) : Prop where
  still : c.expected.isSome = true → c'.expected.isSome = true
  cookie_ne : (∀ e, c.expected = some e → e.cookie ≠ c.cookie) →
    ∀ e, c'.expected = some e → e.cookie ≠ c'.cookie

theorem Heard.trans {c c' c'' : Client} (h : Heard c c') (h' : Heard c' c'') : Heard c c'' :=
  ⟨fun hc => h'.still (h.still hc), fun hc => h'.cookie_ne (h.cookie_ne hc)⟩

theorem Step.heard {service : Service} {c c' : Client} {es : List Event}
    (h : Step service c es c') : Heard c c' := by
  have hcookie := h.later.cookie_eq
  rcases h.expected_cases with heq | ⟨header, next, hnext, heq⟩
  · refine ⟨fun hc => by rw [heq]; exact hc, fun hc => ?_⟩
    rw [heq, hcookie]
    exact hc
  · refine ⟨fun _ => by rw [heq]; rfl, fun hc e he => ?_⟩
    rw [heq] at he
    cases he
    rw [hcookie]
    obtain ⟨hsame, -, ⟨-, hfirst, -⟩ | hlater⟩ := acceptHeader_eq_ok.mp hnext
    · rw [hsame]
      exact hfirst
    · rw [hsame]
      exact hc _ hlater

theorem Steps.heard {service : Service} {c c' : Client} {es : List Event}
    (h : Steps service c es c') : Heard c c' := by
  induction h with
  | refl => exact ⟨fun h => h, fun h => h⟩
  | tail _ step ih => exact ih.trans step.heard

/-- Nothing but used up numbers keeps a client from packing, if the key to seal with is known. -/
theorem error_of_pack {c : Client} {destination : Address} {m : Message} {e : ProtocolError}
    (h : c.pack destination m = .error e)
    (hkey : m.isSealed = true → ∃ key, c.phase.clientKey? = some key) :
    e = .overflowSentinel .outbound := by
  cases hnumber : c.nextNumber.isSentinel with
  | true =>
    simp only [pack, hnumber, if_true] at h
    cases h
    rfl
  | false =>
    obtain ⟨packed, hpacked⟩ : ∃ packed, c.pack destination m = .ok packed := pack_ok hnumber hkey
    cases h.symm.trans hpacked

/-- A message to the server is read from a frame that counts. -/
theorem expected_of_unpack {c c' : Client} {bytes : Bytes} {m : Message}
    (h : c.unpack bytes = .ok (m, c')) (hm : ∀ header frame, m ≠ .raw header frame) :
    c'.expected.isSome = true := by
  obtain ⟨f, -, -, ⟨-, next, -, -, rfl⟩ | ⟨-, -, hraw, -⟩⟩ := unpack_eq_ok.mp h
  · rfl
  · exact absurd hraw (hm _ _)

end Client

/-! ## How phases advance -/

namespace Phase

variable {p q : Phase}

/-- A phase that comes after another one. Roles are for good. -/
structure Follows (p q : Phase) : Prop where
  index_le : p.stage.index ≤ q.stage.index
  role : ∀ role, p.role? = some role → q.role? = some role

theorem Follows.refl (p : Phase) : Follows p p := ⟨Nat.le_refl _, fun _ h => h⟩

theorem Follows.trans {s : Phase} (h : Follows p q) (h' : Follows q s) : Follows p s :=
  ⟨Nat.le_trans h.index_le h'.index_le, fun role hrole => h'.role role (h.role role hrole)⟩

theorem Settles.follows (h : p.Settles q) : Follows p q := by
  cases h with
  | same => exact .refl p
  | greeted hp =>
    subst hp
    exact ⟨by decide, nofun⟩
  | seated hp =>
    subst hp
    exact ⟨Nat.le_succ 3, fun role hrole => hrole⟩

/-- Nobody gets a role without a frame of its own. -/
theorem Settles.role?_eq (h : p.Settles q) : q.role? = p.role? := by
  cases h with
  | same => rfl
  | greeted hp | seated hp => rw [hp]; rfl

end Phase

/-! ## Addresses -/

/-- Whoever has got an address at some time got one of its role. -/
def Client.Addressed (c : Client) : Prop :=
  ∀ a address, c.phase = .seated a address → address.kind = a.role.addressKind

namespace Census

variable {s t : Census} {id : ClientId} {c : Client}

/-- All clients have got addresses of their roles. -/
def Addressed (s : Census) : Prop :=
  ∀ id c, s.client? id = some c → c.Addressed

theorem Addressed.setClient (h : s.Addressed) (hc : c.Addressed) : (s.setClient id c).Addressed := by
  intro other d hd
  simp only [Census.setClient] at hd
  split at hd
  · obtain ⟨-, -, rfl⟩ := Option.map_eq_some_iff.mp hd
    exact hc
  · exact h other d hd

/-- Addresses are given out by seating alone, and there of the right kind. -/
theorem Move.addressed (m : Move s t) (h : s.Addressed) : t.Addressed := by
  cases m with
  | @join id c _ hphase _ _ =>
    intro other d hd
    simp only [Census.join] at hd
    split at hd
    · cases hd
      intro a address hseated
      cases hphase.symm.trans hseated
    · exact h other d hd
  | @advance id c p hc hadvances =>
    refine h.setClient fun a address hseated => ?_
    have hauth := hadvances.isAuthenticated.2
    rw [show p = .seated a address from hseated] at hauth
    cases hauth
  | @rehome id c a p hc =>
    have hregistry : Addressed { s with registry := (s.registry.getOrCreate c.initiatorKey).2 } := h
    exact hregistry.setClient fun a address => h id c hc a address
  | @seat id c a address slots _ _ _ _ hkind _ =>
    have hslots : Addressed (s.setSlots c.path slots) := h
    refine hslots.setClient fun a' address' hseated => ?_
    cases hseated
    exact hkind
  | release | prune => exact h
  | leave hc => exact h.setClient fun a address => h _ _ hc a address

theorem Moves.addressed (m : Moves s t) (h : s.Addressed) : t.Addressed := by
  induction m with
  | refl => exact h
  | tail _ m ih => exact m.addressed ih

end Census

namespace Relay

open Client (Step Steps)

variable {r s : Relay} {id : ClientId} {c c' : Client} {act : Action}

/-- How an action can advance a client: it introduces itself, or proves itself, in a frame that is
received, or its phase settles. -/
inductive Advance (r : Relay) (act : Action) (id : ClientId) (c : Client) : Client → Prop where
  | introduced {bytes : Bytes} {key : PublicKey} {c₁ c' : Client} (hact : act = .receive id bytes)
      (hu : c.unpack bytes = .ok (.clientHello key, c₁)) (hok : c₁.introduce key = .ok c') :
      Advance r act id c c'
  | admitted {bytes : Bytes} {auth : ClientAuth} {c₁ c' : Client} (hact : act = .receive id bytes)
      (hu : c.unpack bytes = .ok (.clientAuth auth, c₁))
      (hok : c₁.authorize r.service auth = .ok c') : Advance r act id c c'
  | settled {c' : Client} (h : c.phase.Settles c'.phase) : Advance r act id c c'

theorem advances_perform (hr : r.census.Coherent) (act : Action) (hc : r.client? id = some c)
    (hc' : (r.perform act).client? id = some c') : r.Advance act id c c' := by
  obtain ⟨d, hd, hsteps⟩ := client?_perform hr act hc
  cases hc'.symm.trans hd
  by_cases htaken : ∃ e, e ∈ ((r.record act).of id) ∧
      ((∃ key, e = .introduced key) ∨ ∃ auth, e = .admitted auth)
  · obtain ⟨e, hmem, he⟩ := htaken
    obtain ⟨bytes, d, c₁, c₂, rfl, hd, ⟨key, -, hu, hok⟩ | ⟨auth, -, hu, hok⟩⟩ :=
      taken_of_record hr he hmem
    · cases hc.symm.trans hd
      have hgreeted : c.phase = .greeted := by
        obtain ⟨hphase, -⟩ := Client.introduce_eq_ok.mp hok
        rw [← (Client.unpack_phase hu).1]
        exact hphase
      have hafter := (took_clientHello hc hu).2 hgreeted
      cases hc'.symm.trans hafter
      obtain ⟨-, rfl⟩ := Client.introduce_eq_ok.mp hok
      exact .introduced rfl hu hok
    · cases hc.symm.trans hd
      cases hc'.symm.trans (received_clientAuth hc hu hok).2
      exact .admitted rfl hu hok
  · exact .settled (hsteps.settles (fun key hmem => htaken ⟨_, hmem, .inl ⟨key, rfl⟩⟩)
      fun auth hmem => htaken ⟨_, hmem, .inr ⟨auth, rfl⟩⟩)

/-- Stages only go forward, and roles stay. -/
theorem Advance.follows (h : r.Advance act id c c') : c.phase.Follows c'.phase := by
  cases h with
  | introduced _ hu hok =>
    obtain ⟨hphase, rfl⟩ := Client.introduce_eq_ok.mp hok
    rw [(Client.unpack_phase hu).1] at hphase
    rw [hphase]
    exact ⟨Nat.le_succ 1, nofun⟩
  | admitted _ hu hok =>
    obtain ⟨role, key, permanent, hclaimed, -, -, -, rfl⟩ := Client.authorize_eq_ok.mp hok
    rw [← (Client.unpack_phase hu).1]
    rcases Client.claimed?_eq_some.mp hclaimed with ⟨hphase, -, -⟩ | ⟨hphase, rfl⟩
    · rw [hphase]
      exact ⟨Nat.le_add_right 1 2, nofun⟩
    · rw [hphase]
      exact ⟨Nat.le_succ 2, fun role hrole => hrole⟩
  | settled h => exact h.follows

/-! ## All clients fit -/

theorem addressed_perform (h : r.census.Addressed) (act : Action) :
    (r.perform act).census.Addressed := by
  have hhear : ∀ id bytes, (r.hear id bytes).census.Addressed := by
    intro id bytes
    rcases hear_cases r id bytes with ⟨heq, -⟩ | ⟨c, f, next, hc, -, -, heq⟩
    · rw [heq]
      exact h
    · rw [heq, census_setClient]
      exact h.setClient fun a address => h id _ (census_client? hc) a address
  refine (census_perform r act).addressed ?_
  cases act with
  | receive id bytes | unpack id bytes => exact hhear id bytes
  | _ => exact h

/-- What the phases of all clients do not say by themselves. -/
structure Upright (r : Relay) : Prop where
  coherent : r.census.Coherent
  addressed : r.census.Addressed
  heard : ∀ id c, r.client? id = some c →
    (c.phase.admission?.isSome = true → c.expected.isSome = true) ∧
      ∀ e, c.expected = some e → e.cookie ≠ c.cookie

theorem Upright.sane (h : r.Upright) (hc : r.client? id = some c) : c.Sane :=
  ⟨(h.heard id c hc).1, fun a address => h.addressed id _ (census_client? hc) a address,
    (h.heard id c hc).2⟩

theorem upright_new (service : Service) : (new service).Upright :=
  ⟨coherent_new service, fun id c hc => by simp [census, new, client?] at hc,
    fun id c hc => by simp [new, client?] at hc⟩

/-- Only who was just heard is admitted. -/
theorem Advance.heard (h : r.Advance act id c c') (hheard : c.Heard c')
    (hc : c.phase.admission?.isSome = true → c.expected.isSome = true)
    (hc' : c'.phase.admission?.isSome = true) : c'.expected.isSome = true := by
  cases h with
  | introduced _ _ hok =>
    obtain ⟨-, rfl⟩ := Client.introduce_eq_ok.mp hok
    cases hc'
  | admitted _ hu hok =>
    have hexpected := Client.expected_of_unpack hu nofun
    obtain ⟨-, -, -, -, -, -, -, rfl⟩ := Client.authorize_eq_ok.mp hok
    exact hexpected
  | settled h =>
    refine hheard.still (hc ?_)
    generalize c'.phase = q at h hc'
    cases h with
    | same => exact hc'
    | greeted => cases hc'
    | seated hp => rw [hp]; rfl

theorem Upright.perform (h : r.Upright) (act : Action) : (r.perform act).Upright := by
  refine ⟨coherent_perform h.coherent act, addressed_perform h.addressed act, fun id c' hc' => ?_⟩
  rcases steps_perform h.coherent act hc' with ⟨c, hc, hsteps⟩ |
    ⟨path, key, subprotocol, draw, -, -, rfl, -⟩
  · obtain ⟨hadmitted, hcookie⟩ := h.heard id c hc
    have hadvance := advances_perform h.coherent act hc hc'
    exact ⟨hadvance.heard hsteps.heard hadmitted, hsteps.heard.cookie_ne hcookie⟩
  · exact ⟨nofun, nofun⟩

theorem upright_run (service : Service) (actions : List Action) :
    ((new service).run actions).Upright :=
  run_induction (upright_new service) (fun _ act h => h.perform act) actions

/-! ## Stages of a run -/

/-- Who is there at some time stays there, at a later stage and in the same role. -/
theorem follows_run (hr : r.census.Coherent) (hc : r.client? id = some c) (more : List Action) :
    ∃ c', (r.run more).client? id = some c' ∧ c.phase.Follows c'.phase := by
  induction more generalizing r c with
  | nil => exact ⟨c, hc, .refl _⟩
  | cons act rest ih =>
    obtain ⟨d, hd, -⟩ := client?_perform hr act hc
    obtain ⟨c', hc', hfollows⟩ := ih (coherent_perform hr act) hd
    exact ⟨c', hc', (advances_perform hr act hc hd).follows.trans hfollows⟩

/-- A client introduced itself at some time of a run. -/
def WasIntroduced (r : Relay) (actions : List Action) (id : ClientId) : Prop :=
  ∃ before after d, actions = before ++ after ∧ (r.run before).client? id = some d ∧
    d.stage = .clientHello

theorem WasIntroduced.concat {actions : List Action} (h : r.WasIntroduced actions id) :
    r.WasIntroduced (actions ++ [act]) id := by
  obtain ⟨before, after, d, rfl, hd, hstage⟩ := h
  exact ⟨before, after ++ [act], d, by rw [List.append_assoc], hd, hstage⟩

/-- The role of a responder comes from its introduction. -/
theorem introduced_of_responder {actions : List Action} {service : Service}
    (hc : ((new service).run actions).client? id = some c) (hrole : c.role? = some .responder) :
    (new service).WasIntroduced actions id := by
  induction actions using List.reverseRecOn generalizing c with
  | nil => simp [new, client?] at hc
  | append_singleton actions act ih =>
    have hr := coherent_run service actions
    have hafter := hc
    rw [run_concat] at hc
    rcases steps_perform hr act hc with ⟨d, hd, -⟩ | ⟨path, key, subprotocol, draw, -, -, rfl, -⟩
    · cases advances_perform hr act hd hc with
      | introduced _ _ hok =>
        obtain ⟨-, rfl⟩ := Client.introduce_eq_ok.mp hok
        exact ⟨actions ++ [act], [], _, (List.append_nil _).symm, hafter, rfl⟩
      | admitted _ hu hok =>
        obtain ⟨role, key, permanent, hclaimed, -, -, -, rfl⟩ := Client.authorize_eq_ok.mp hok
        rcases Client.claimed?_eq_some.mp hclaimed with ⟨-, rfl, -⟩ | ⟨hphase, -⟩
        · cases hrole
        · -- Before its proof it was just introduced.
          rw [(Client.unpack_phase hu).1] at hphase
          exact ⟨actions, [act], d, rfl, hd, by rw [Client.stage, hphase]; rfl⟩
      | settled hsettles =>
        rw [Client.role?, hsettles.role?_eq] at hrole
        exact (ih hd hrole).concat
    · cases hrole

theorem responder_of_introduced {actions : List Action} {service : Service}
    (hc : ((new service).run actions).client? id = some c)
    (h : (new service).WasIntroduced actions id) : c.role? = some .responder := by
  obtain ⟨before, after, d, rfl, hd, hstage⟩ := h
  obtain ⟨c', hc', hfollows⟩ := follows_run (coherent_run service before) hd after
  rw [← run_append] at hc'
  cases hc.symm.trans hc'
  exact hfollows.role _ (Phase.of_clientHello hstage).1

/-! ## Answers that are sent -/

/-- Only one step answers a client, and it gives the client its address. -/
theorem answers_of_step {service : Service} {es : List Event} (h : Step service c es c') :
    (es.countP Event.isAnswer = 0 ∧ c'.isAuthenticated = c.isAuthenticated) ∨
      (es.countP Event.isAnswer = 1 ∧ c.isAuthenticated = false ∧ c'.isAuthenticated = true) := by
  cases h with
  | introduce h =>
    obtain ⟨hphase, rfl⟩ := Client.introduce_eq_ok.mp h
    exact .inl ⟨rfl, by rw [Client.isAuthenticated, Client.isAuthenticated, hphase]; rfl⟩
  | authorize h =>
    obtain ⟨role, key, permanent, hclaimed, -, -, -, rfl⟩ := Client.authorize_eq_ok.mp h
    exact .inl ⟨rfl, (Client.phase_of_claimed hclaimed).2.symm⟩
  | greet hphase h =>
    refine .inl ⟨rfl, ?_⟩
    rw [Client.isAuthenticated, Client.isAuthenticated, hphase]
    rfl
  | @answer a address auth seats frame c₁ hphase _ =>
    have hpings : a.recordPings.countP Event.isAnswer = 0 := by
      unfold Admission.recordPings
      split <;> rfl
    obtain ⟨outbox, heq⟩ := seated_eq c₁ a address frame
    refine .inr ⟨?_, by rw [Client.isAuthenticated, hphase]; rfl, by rw [heq]; rfl⟩
    rw [List.countP_cons_of_pos rfl, hpings]
  | refuse _ h | pack h =>
    obtain ⟨next, -, rfl⟩ := Client.eq_of_pack h
    exact .inl ⟨rfl, rfl⟩
  | post h | serve _ h =>
    obtain ⟨next, -, rfl⟩ := Client.eq_of_pack (Client.sending_eq_ok.mp h).2
    exact .inl ⟨rfl, rfl⟩
  | _ => exact .inl ⟨rfl, rfl⟩

/-- A client that has an address was answered once, and no other client was. -/
theorem answers_run (service : Service) (actions : List Action) (id : ClientId) :
    ((new service).history actions id).countP Event.isAnswer ≤ 1 := by
  have hstep : ∀ c es c' history, Client.Step service c es c' →
      history.countP Event.isAnswer = (if c.isAuthenticated then 1 else 0) →
      (history ++ es).countP Event.isAnswer = if c'.isAuthenticated then 1 else 0 := by
    intro c es c' history hstep h
    rw [List.countP_append, h]
    rcases answers_of_step hstep with ⟨hnone, hauth⟩ | ⟨hone, hbefore, hafter⟩
    · rw [hnone, hauth, Nat.add_zero]
    · rw [hone, hbefore, hafter]
      rfl
  have hinvariant := history_induction (fun _ _ _ _ _ => rfl) hstep actions id
  cases hc : ((new service).run actions).client? id with
  | none =>
    rw [hinvariant.2 hc]
    exact Nat.zero_le 1
  | some c =>
    rw [hinvariant.1 c hc]
    split <;> omega

/-- Nobody is told an answer. -/
theorem ne_serverAuth_of_told (hr : r.census.Coherent) {m : Message} {seats : Slots ClientId}
    (h : (id, .told m seats) ∈ r.record act) (auth : ServerAuth) : m ≠ .serverAuth auth := by
  rintro rfl
  have hnews : (id, .told (.serverAuth auth) seats) ∈ (r.record act).news :=
    List.mem_filter.mpr ⟨h, rfl⟩
  have hturn := turn_perform hr act
  generalize (r.record act).news = news at hnews hturn
  cases hturn with
  | quiet | release => cases hnews
  | introduce | authorize | drop | relay => cases List.mem_singleton.mp hnews
  | @seat _ c a _ _ _ _ _ _ _ _ _ _ _ =>
    rcases List.mem_cons.mp hnews with heq | hnews
    · cases heq
    · obtain ⟨other, -, heq⟩ := List.mem_map.mp hnews
      cases hrole : a.role <;> rw [hrole] at heq <;> cases heq
  | leave =>
    obtain ⟨other, -, heq⟩ := List.mem_map.mp hnews
    cases heq

theorem ne_serverAuth_of_history (hr : r.census.Coherent) {actions : List Action} {m : Message}
    {seats : Slots ClientId} (h : .told m seats ∈ r.history actions id) (auth : ServerAuth) :
    m ≠ .serverAuth auth := by
  induction actions generalizing r with
  | nil => cases h
  | cons act rest ih =>
    unfold history at h
    rw [Journal.mem_of, journal, List.mem_append] at h
    rcases h with h | h
    · exact ne_serverAuth_of_told hr h auth
    · exact ih (coherent_perform hr act) (Journal.mem_of.mpr h)

end Relay

/-- The server's answer. -/
def Message.isServerAuth : Message → Bool
  | .serverAuth _ => true
  | _ => false

/-- An entry that holds the server's answer. -/
def Entry.isServerAuth (x : Entry) : Bool :=
  x.message?.any Message.isServerAuth

/-- A letter that holds the server's answer. -/
def Letter.isServerAuth : Letter → Bool
  | .said m _ => m.isServerAuth
  | .relayed .. => false

/-- How many letters of a kind are in a ledger. -/
def Ledger.countLetters (p : Letter → Bool) (l : Ledger) : Nat :=
  (l.sent.filterMap Entry.letter?).countP p + l.waiting.countP p

section Ledgers

variable {history : List Event} {e : Event}

/-- Letters come into a ledger only when they are caused. -/
theorem Ledger.countLetters_note (p : Letter → Bool) (l : Ledger) (e : Event) :
    (l.note e).countLetters p ≤ l.countLetters p + e.letter?.toList.countP p := by
  have hpop : ∀ frame, (l.pop frame).countLetters p ≤ l.countLetters p := by
    intro frame
    unfold pop countLetters
    split
    · exact Nat.le_refl _
    · next letter rest hwaiting =>
      simp only [hwaiting, List.filterMap_append, List.countP_append, List.countP_cons,
        List.filterMap_cons, Entry.letter?, List.filterMap_nil, List.countP_nil]
      omega
  have hsend : ∀ x : Entry, (l.send x).countLetters p =
      l.countLetters p + x.letter?.toList.countP p := by
    intro x
    unfold send countLetters
    cases hx : x.letter? with
    | none => simp [hx]
    | some letter =>
      simp only [List.filterMap_append, List.countP_append, List.filterMap_cons, hx,
        List.filterMap_nil, Option.toList_some]
      omega
  have hwait : ∀ letter : Letter, (l.wait letter).countLetters p =
      l.countLetters p + [letter].countP p := by
    intro letter
    simp only [wait, countLetters, List.countP_append]
    omega
  cases e with
  | greeted | answered | refused | posted | ordered => exact Nat.le_of_eq (hsend _)
  | told => exact Nat.le_of_eq (hwait _)
  | relayed sender frame =>
    cases hwaiting : l.waiting with
    | nil =>
      rw [note_relayed_of_nil hwaiting]
      exact Nat.le_of_eq (hsend _)
    | cons letter rest =>
      rw [note_relayed_of_ne (by simp [hwaiting])]
      exact Nat.le_of_eq (hwait _)
  | served _ frame | released frame => exact hpop frame
  | cut code =>
    -- What waits is lost, and a close order is no letter.
    have hsent : (l.note (.cut code)).sent.filterMap Entry.letter? =
        l.sent.filterMap Entry.letter? := by
      show (l.sent ++ [Entry.order (.close code)]).filterMap Entry.letter? = _
      rw [List.filterMap_append]
      exact List.append_nil _
    unfold countLetters
    rw [hsent]
    show _ + 0 ≤ _
    omega
  | _ => exact Nat.le_refl _

theorem countLetters_ledger (p : Letter → Bool) (history : List Event) :
    (ledger history).countLetters p ≤ (letters history).countP p := by
  induction history using List.reverseRecOn with
  | nil => exact Nat.le_refl _
  | append_singleton history e ih =>
    have hnote := Ledger.countLetters_note p (ledger history) e
    rw [ledger_concat, letters_concat, List.countP_append]
    omega

/-- An answer that is no letter comes from outside. -/
theorem posted_of_reply {auth : ServerAuth} {frame : Bytes}
    (h : .reply (.serverAuth auth) frame ∈ (ledger history).sent) :
    .posted (.serverAuth auth) frame ∈ history := by
  by_contra hposted
  -- An answer always says whether the initiator is there.
  have hreports := reply_of_ledger hposted h .initiator
  rw [Message.reports] at hreports
  cases hside : auth.otherSide with
  | initiator connected => simp [hside, OtherSide.reports] at hreports
  | responders addresses => simp [hside, OtherSide.reports] at hreports

/-- If no answer comes from outside, as many are sent as letters hold one, at most. -/
theorem countP_isServerAuth_le (h : ∀ auth frame, .posted (.serverAuth auth) frame ∉ history) :
    (ledger history).sent.countP Entry.isServerAuth ≤
      (letters history).countP Letter.isServerAuth := by
  have hsent : (ledger history).sent.countP Entry.isServerAuth ≤
      ((ledger history).sent.filterMap Entry.letter?).countP Letter.isServerAuth := by
    rw [List.countP_filterMap]
    refine List.countP_mono_left fun x hx hanswer => ?_
    cases x with
    | letter l frame =>
      cases l with
      | said m seats => simpa [Entry.isServerAuth, Entry.message?, Entry.letter?,
          Letter.isServerAuth] using hanswer
      | relayed => cases hanswer
    | reply m frame =>
      cases m with
      | serverAuth auth => exact absurd (posted_of_reply hx) (h auth frame)
      | _ => cases hanswer
    | order => cases hanswer
  have hcaused := countLetters_ledger Letter.isServerAuth history
  unfold Ledger.countLetters at hcaused
  omega

/-- Answers are the events that cause letters with an answer, if nobody is told one. -/
theorem countP_letters_le (h : ∀ m seats, .told m seats ∈ history → m.isServerAuth = false) :
    (letters history).countP Letter.isServerAuth ≤ history.countP Event.isAnswer := by
  unfold letters
  rw [List.countP_filterMap]
  refine List.countP_mono_left fun e he hletter => ?_
  cases e with
  | answered => rfl
  | told m seats => simp [Event.letter?, Letter.isServerAuth, h m seats he] at hletter
  | _ => cases hletter

end Ledgers

namespace Relay

variable {r s : Relay} {id : ClientId} {c c' : Client} {act : Action}

/-- Nobody is told an answer, in any run. -/
theorem isServerAuth_of_told {service : Service} {actions : List Action} {m : Message}
    {seats : Slots ClientId} (h : .told m seats ∈ (new service).history actions id) :
    m.isServerAuth = false := by
  have hne := ne_serverAuth_of_history (coherent_new service) h
  cases m with
  | serverAuth auth => exact absurd rfl (hne auth)
  | _ => rfl

theorem answered_run (service : Service) (actions : List Action) (id : ClientId)
    (h : ∀ auth, Action.send id (.serverAuth auth) ∉ actions) :
    (ledger ((new service).history actions id)).sent.countP Entry.isServerAuth ≤ 1 := by
  have hposted : ∀ auth frame,
      .posted (.serverAuth auth) frame ∉ (new service).history actions id := by
    intro auth frame hmem
    obtain ⟨act, hact, rfl⟩ := from_of_history hmem
    exact h auth hact
  exact (countP_isServerAuth_le hposted).trans
    ((countP_letters_le fun _ _ => isServerAuth_of_told).trans (answers_run service actions id))

/-! ## Answers that are dispatched -/

/-- The jobs that were there before an action and are left after it. -/
def jobsLeft (r : Relay) : Action → List Job
  | .runJob place => r.jobs.pending.eraseIdx place
  | _ => r.jobs.pending

/-- The jobs that an action dispatches. -/
def jobsAdded (r : Relay) (act : Action) : List Job :=
  (r.perform act).jobs.pending.drop (r.jobsLeft act).length

/-- All jobs that are dispatched in a run, in order. -/
def dispatched : Relay → List Action → List Job
  | _, [] => []
  | r, act :: rest => r.jobsAdded act ++ dispatched (r.perform act) rest

theorem jobsAdded_eq {added : List Job}
    (h : (r.perform act).jobs.pending = r.jobsLeft act ++ added) : r.jobsAdded act = added := by
  rw [jobsAdded, h, List.drop_left]

/-- A client is admitted by an action. -/
def Admits (r : Relay) (act : Action) (id : ClientId) : Prop :=
  ∃ bytes auth c c₁ c₂, act = .receive id bytes ∧ r.client? id = some c ∧
    c.unpack bytes = .ok (.clientAuth auth, c₁) ∧ c₁.authorize r.service auth = .ok c₂

/-- What is handled dispatches deliveries alone, unless it admits the client. -/
theorem addsDeliveries_handle (hc : r.client? id = some c) (m : Message) :
    AddsDeliveries r (r.handle id c m).2 ∨
      ∃ auth c', m = .clientAuth auth ∧ c.authorize r.service auth = .ok c' ∧
        (r.handle id c m).2.jobs.pending = r.jobs.pending ++ [.answer id] := by
  cases m with
  | clientHello key => exact .inl (.of_eq (jobs_update ..))
  | clientAuth auth =>
    have hhandle : (r.handle id c (.clientAuth auth)).2 = (r.handleClientAuth id auth).2 := rfl
    rw [hhandle]
    unfold handleClientAuth
    rcases update_cases r id fun c => c.authorize r.service auth with ⟨hnone, -⟩ |
      ⟨d, e, -, -, heq⟩ | ⟨d, c', hd, hok, heq⟩
    · cases hc.symm.trans hnone
    · rw [heq]
      exact .inl (.of_eq rfl)
    · cases hc.symm.trans hd
      rw [heq]
      exact .inr ⟨auth, c', rfl, hok, rfl⟩
  | dropResponder responder reason =>
    have hhandle : (r.handle id c (.dropResponder responder reason)).2 =
        (r.handleDropResponder c responder reason).2 := rfl
    rw [hhandle]
    rcases handleDropResponder_cases r c responder reason with ⟨-, heq⟩ | ⟨-, -, -, heq⟩ |
      ⟨other, f, -, -, -, heq⟩ <;> rw [heq] <;> exact .inl (.of_eq rfl)
  | raw h frame => exact .inl (.of_eq (jobs_handleRaw r id c h frame))
  | _ => exact .inl (.of_eq rfl)

theorem addsDeliveries_disconnected (r : Relay) (id : ClientId) :
    AddsDeliveries r (r.disconnected id).2 := by
  rcases disconnected_cases r id with ⟨-, heq⟩ | ⟨c, outcome, -, -, heq⟩ |
    ⟨c, role, outcome, -, -, -, -, heq⟩
  · rw [heq]
    exact .of_eq rfl
  · rw [heq]
    exact .of_eq (jobs_departed ..)
  · rw [heq]
    exact (AddsDeliveries.of_eq (jobs_departed ..)).trans (addsDeliveries_announce ..)

/-- **What an action dispatches**: the answer to the client that it admits, or deliveries alone. -/
theorem pending_cases (r : Relay) (act : Action) :
    (∃ ids : List ClientId,
      (r.perform act).jobs.pending = r.jobsLeft act ++ ids.map Job.deliver) ∨
    (∃ id, r.Admits act id ∧ (r.perform act).jobs.pending = r.jobsLeft act ++ [.answer id]) := by
  cases act with
  | receive id bytes =>
    have hperform : r.perform (.receive id bytes) = (r.received id bytes).2 := rfl
    rw [hperform]
    rcases received_cases r id bytes with ⟨outcome, heq⟩ | ⟨c, m, c₁, hc, hu, heq⟩
    · rw [heq]
      exact .inl (AddsDeliveries.of_eq rfl)
    · rw [heq]
      have hc₁ := (received_of_unpack hc hu).2
      rcases addsDeliveries_handle hc₁ m with hadds | ⟨auth, c₂, rfl, hok, hpending⟩
      · exact .inl hadds
      · exact .inr ⟨id, ⟨bytes, auth, c, c₁, c₂, rfl, hc, hu, hok⟩, hpending⟩
  | accept => exact .inl (AddsDeliveries.of_eq rfl)
  | greet | unpack | pack | send => exact .inl (AddsDeliveries.of_eq (jobs_update ..))
  | answer id => exact .inl (addsDeliveries_sendServerAuth r id)
  | disconnect id => exact .inl (addsDeliveries_disconnected r id)
  | runJob place =>
    left
    cases hplace : r.jobs.pending[place]? with
    | none =>
      refine ⟨[], ?_⟩
      rw [jobsLeft, List.eraseIdx_of_length_le (List.getElem?_eq_none_iff.mp hplace)]
      simp [perform, JobQueue.takeAt, hplace]
    | some job =>
      have hadds := addsDeliveries_runJob { r with jobs := ⟨r.jobs.pending.eraseIdx place⟩ } job
      obtain ⟨ids, hids⟩ := hadds
      refine ⟨ids, ?_⟩
      simpa [perform, JobQueue.takeAt, hplace, jobsLeft] using hids
  | fail => exact .inl (AddsDeliveries.of_eq (jobs_fail ..))
  | close | collect | hangUp => exact .inl (AddsDeliveries.of_eq rfl)

/-- Jobs are dispatched behind those that wait. -/
theorem pending_perform (r : Relay) (act : Action) :
    (r.perform act).jobs.pending = r.jobsLeft act ++ r.jobsAdded act := by
  rcases pending_cases r act with ⟨ids, h⟩ | ⟨id, -, h⟩ <;> rw [jobsAdded_eq h, h]

/-- The answer to a client is dispatched when the client is admitted, and only then. -/
theorem count_jobsAdded (r : Relay) (act : Action) (id : ClientId) :
    (r.jobsAdded act).count (.answer id) = 0 ∨
      r.Admits act id ∧ (r.jobsAdded act).count (.answer id) = 1 := by
  rcases pending_cases r act with ⟨ids, h⟩ | ⟨other, hadmits, h⟩
  · rw [jobsAdded_eq h]
    exact .inl (List.count_eq_zero_of_not_mem (by simp))
  · rw [jobsAdded_eq h]
    by_cases heq : other = id
    · subst heq
      exact .inr ⟨hadmits, List.count_singleton_self⟩
    · exact .inl (List.count_eq_zero_of_not_mem (by simpa [eq_comm] using heq))

/-- A client proved itself at some time. -/
def WasAdmitted (r : Relay) (id : ClientId) : Prop :=
  ∃ c, r.client? id = some c ∧ 3 ≤ c.stage.index

/-- Who is admitted was not so before, and is so for good. -/
theorem Admits.not_before (h : r.Admits act id) : ¬ r.WasAdmitted id := by
  obtain ⟨bytes, auth, c, c₁, c₂, rfl, hc, hu, hok⟩ := h
  obtain ⟨role, key, permanent, hclaimed, -⟩ := Client.authorize_eq_ok.mp hok
  rintro ⟨d, hd, hindex⟩
  cases hc.symm.trans hd
  rw [Client.stage, ← (Client.unpack_phase hu).1] at hindex
  rcases Client.claimed?_eq_some.mp hclaimed with ⟨hphase, -, -⟩ | ⟨hphase, -⟩
  · rw [hphase] at hindex
    exact absurd hindex (by decide)
  · rw [hphase] at hindex
    exact absurd hindex (Nat.not_succ_le_self 2)

theorem Admits.after (h : r.Admits act id) : (r.perform act).WasAdmitted id := by
  obtain ⟨bytes, auth, c, c₁, c₂, rfl, hc, hu, hok⟩ := h
  have hafter := (received_clientAuth hc hu hok).2
  obtain ⟨role, key, permanent, -, -, -, -, rfl⟩ := Client.authorize_eq_ok.mp hok
  exact ⟨_, hafter, Nat.le_refl 3⟩

theorem WasAdmitted.perform (h : r.WasAdmitted id) (hr : r.census.Coherent) (act : Action) :
    (r.perform act).WasAdmitted id := by
  obtain ⟨c, hc, hindex⟩ := h
  obtain ⟨c', hc', -⟩ := client?_perform hr act hc
  exact ⟨c', hc', hindex.trans (advances_perform hr act hc hc').follows.index_le⟩

theorem dispatched_of_wasAdmitted (hr : r.census.Coherent) (h : r.WasAdmitted id)
    (actions : List Action) : (r.dispatched actions).count (.answer id) = 0 := by
  induction actions generalizing r with
  | nil => rfl
  | cons act rest ih =>
    rw [dispatched, List.count_append, ih (coherent_perform hr act) (h.perform hr act)]
    rcases count_jobsAdded r act id with hnone | ⟨hadmits, -⟩
    · exact hnone
    · exact absurd h hadmits.not_before

/-- The answer to a client is dispatched once at most. -/
theorem dispatched_run (hr : r.census.Coherent) (actions : List Action) :
    (r.dispatched actions).count (.answer id) ≤ 1 := by
  induction actions generalizing r with
  | nil => exact Nat.zero_le 1
  | cons act rest ih =>
    have hcoherent := coherent_perform hr act
    rw [dispatched, List.count_append]
    rcases count_jobsAdded r act id with hnone | ⟨hadmits, hone⟩
    · rw [hnone, Nat.zero_add]
      exact ih hcoherent
    · rw [hone, dispatched_of_wasAdmitted hcoherent hadmits.after]

/-! ## What keeps an answer from being sent -/

theorem error_of_seat {path : PathId} {role : Role} {e : ProtocolError}
    (h : r.seat path id role = .error e) : e = .pathFull := by
  cases role with
  | initiator => cases h
  | responder =>
    simp only [seat] at h
    split at h
    · cases h
    · cases h
      rfl

/-- Who proved itself is answered, unless its path is full or its numbers are used up. -/
theorem error_of_sendServerAuth (hr : r.Upright) {e : ProtocolError}
    (h : (r.sendServerAuth id).1 = .error e) :
    (∃ c, r.client? id = some c ∧ c.stage ≠ .clientAuth ∧ e = c.unexpected .serverAuth) ∨
      e = .pathFull ∨ e = .overflowSentinel .outbound := by
  cases hc : r.client? id with
  | none =>
    rw [sendServerAuth, hc] at h
    cases h
  | some c =>
    by_cases hadmitted : ∃ a, c.phase = .admitted a
    · obtain ⟨a, hphase⟩ := hadmitted
      -- It was heard, so it is answered.
      obtain ⟨due, hdue⟩ := Option.isSome_iff_exists.mp
        ((hr.sane hc).heard (by rw [hphase]; rfl))
      have hanswer : c.gone = false ∧ (r.answer id c a due.cookie).1 = .error e := by
        cases hgone : c.gone with
        | true => simp [sendServerAuth, hc, hgone] at h
        | false => exact ⟨rfl, by simpa [sendServerAuth, hc, hgone, hphase, hdue] using h⟩
      rcases answer_cases r id c a due.cookie with ⟨e', hseat, heq⟩ | ⟨s, r', e', -, hpack, heq⟩ |
        ⟨s, r', frame, c', -, -, heq⟩
      · rw [heq] at hanswer
        cases hanswer.2
        exact .inr (.inl (error_of_seat hseat))
      · rw [heq] at hanswer
        cases hanswer.2
        exact .inr (.inr (Client.error_of_pack hpack fun _ => ⟨a.clientKey, by rw [hphase]; rfl⟩))
      · rw [heq] at hanswer
        cases hanswer.2
    · have hstage : c.stage ≠ .clientAuth := by
        intro hstage
        cases hphase : c.phase <;> rw [Client.stage, hphase] at hstage <;> cases hstage
        exact hadmitted ⟨_, hphase⟩
      refine .inl ⟨c, rfl, hstage, ?_⟩
      simp only [sendServerAuth, hc] at h
      split at h
      · cases h
      · split at h
        · next hphase _ => exact absurd ⟨_, hphase⟩ hadmitted
        · next hphase _ => exact absurd ⟨_, hphase⟩ hadmitted
        · cases h
          rfl

end Relay

end Rendezvous
