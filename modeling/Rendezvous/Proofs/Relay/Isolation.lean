import Mathlib.Data.List.Count
import Rendezvous.Proofs.Relay.Lockstep
import Rendezvous.Proofs.Relay.Progress

/-!
# Keys are isolated from each other

All keys share the registry, the clients' names and the queue. That an action is confined to its key is one
half of their isolation (`confined_perform`). The other half is that it does not look at anything else: on
two relays that are alike as far as the key is concerned, whatever they have of other keys, the same action
ends the same way and leaves relays that are alike.

Both halves together make actions of different keys commute. After the first one the relay is as before for
the key of the second, which therefore does the same; and what it does goes unnoticed by the key of the
first. What both make has other names in the other order, if both make a client or both make a path.

* **`Renaming.Matches`** — the same action in two relays.
* **`Alike.perform`** — the same action keeps relays alike.
* **`Alike.exists_perform`** — it does so whatever the next names are.
* **`Relay.crossing`** — the names in one order and in the other.
* **`alike_commuted`**, **`pending_commuted`** — what is there after two actions, in either order.
* **`isolated_run`** — isolation.
-/

namespace Rendezvous

/-! ## The same action in two relays -/

/-- An action after another one: a job moves up in the queue if one that stands before it is run. -/
def Action.after : Action → Action → Action
  | .runJob place, .runJob ran => .runJob (if ran < place then place - 1 else place)
  | act, _ => act

theorem Action.after_eq_self {act : Action} (h : ∀ place, act ≠ .runJob place) (other : Action) :
    act.after other = act := by
  cases act with
  | runJob place => exact absurd rfl (h place)
  | _ => rfl

namespace Renaming

/-- An action about a client under its other name. -/
def action (ρ : Renaming) : Action → Action
  | .accept key subprotocol draw => .accept key subprotocol draw
  | .greet id => .greet (ρ.client id)
  | .receive id bytes => .receive (ρ.client id) bytes
  | .unpack id bytes => .unpack (ρ.client id) bytes
  | .pack id destination m => .pack (ρ.client id) destination m
  | .send id m => .send (ρ.client id) m
  | .answer id => .answer (ρ.client id)
  | .disconnect id => .disconnect (ρ.client id)
  | .runJob place => .runJob place
  | .fail id e => .fail (ρ.client id) e
  | .close id code => .close (ρ.client id) code
  | .collect id => .collect (ρ.client id)
  | .hangUp id => .hangUp (ρ.client id)

/-- The same action in two relays: it is about the same client, or it runs the same job, which may wait at
different places. -/
inductive Matches (ρ : Renaming) (r s : Relay) : Action → Action → Prop where
  | named {act : Action} (h : ∀ place, act ≠ .runJob place) : Matches ρ r s act (ρ.action act)
  | job {place place' : Nat} {job : Job} (h : r.jobs.pending[place]? = some job)
      (h' : s.jobs.pending[place']? = some (ρ.job job)) :
      Matches ρ r s (.runJob place) (.runJob place')

/-- Whatever a relay comes to have anew has the names that are the next ones in both. -/
structure Meets (ρ : Renaming) (r r' s : Relay) : Prop where
  client : r'.nextClient ≠ r.nextClient → ρ.client r.nextClient = s.nextClient
  path : r'.nextPath ≠ r.nextPath → ρ.path r.nextPath = s.nextPath

/-- Other names by which also the next names of two relays go together. -/
def meeting (ρ : Renaming) (r s : Relay) : Renaming where
  client := ρ.client.trans (Equiv.swap (ρ.client r.nextClient) s.nextClient)
  path := ρ.path.trans (Equiv.swap (ρ.path r.nextPath) s.nextPath)

theorem meets_meeting (ρ : Renaming) (r r' s : Relay) : (ρ.meeting r s).Meets r r' s :=
  ⟨fun _ => Equiv.swap_apply_left .., fun _ => Equiv.swap_apply_left ..⟩

variable {r s : Relay} {ρ ρ' : Renaming} {act act' : Action}

theorem action_refl (act : Action) : refl.action act = act := by
  cases act <;> rfl

theorem job_congr {job : Job} (h : ρ'.client job.client = ρ.client job.client) :
    ρ'.job job = ρ.job job := by
  cases job with
  | answer id => exact congrArg Job.answer h
  | deliver id => exact congrArg Job.deliver h

theorem action_congr (h : ∀ id, r.subject? act = some id → ρ'.client id = ρ.client id) :
    ρ'.action act = ρ.action act := by
  cases act with
  | accept | runJob => rfl
  | _ => simp only [action, h _ rfl]

theorem Matches.congr (hact : ρ.Matches r s act act')
    (h : ∀ id, r.subject? act = some id → ρ'.client id = ρ.client id) : ρ'.Matches r s act act' := by
  cases hact with
  | named hplace =>
    rw [← action_congr h]
    exact .named hplace
  | @job place place' job hjob hjob' =>
    refine .job hjob ?_
    rw [job_congr (h job.client ?_)]
    · exact hjob'
    · rw [Relay.subject?, JobQueue.takeAt, hjob]
      rfl

end Renaming

namespace Relay

/-- How the handler of an action ends. Only some can fail. -/
def outcome (r : Relay) : Action → Outcome
  | .greet id => (r.sendServerHello id).1
  | .receive id bytes => (r.received id bytes).1
  | .unpack id bytes => (r.update id fun c => Prod.snd <$> c.unpack bytes).1
  | .pack id destination m => (r.update id fun c => Prod.snd <$> c.pack destination m).1
  | .send id m => (r.update id fun c => c.send m).1
  | .answer id => (r.sendServerAuth id).1
  | .disconnect id => (r.disconnected id).1
  | .accept .. | .runJob _ | .fail .. | .close .. | .collect _ | .hangUp _ => .ok ()

variable {r s : Relay} {key other : PublicKey} {ρ : Renaming} {act act' : Action}

theorem perform_runJob {place : Nat} {job : Job} (h : r.jobs.pending[place]? = some job) :
    r.perform (.runJob place) = { r with jobs := ⟨r.jobs.pending.eraseIdx place⟩ }.runJob job := by
  rw [perform, JobQueue.takeAt, h]
  rfl

theorem keyOfAction_runJob {place : Nat} {job : Job} (h : r.jobs.pending[place]? = some job) :
    r.keyOfAction (.runJob place) = r.keyOf job.client := by
  show ((r.jobs.takeAt place).map fun taken => taken.1.client).bind r.keyOf = _
  rw [JobQueue.takeAt, h]
  rfl

theorem exists_job {place : Nat} (h : r.keyOfAction (.runJob place) = some key) :
    ∃ job, r.jobs.pending[place]? = some job ∧ r.keyOf job.client = some key := by
  cases hjob : r.jobs.pending[place]? with
  | none =>
    replace h : ((r.jobs.takeAt place).map fun taken => taken.1.client).bind r.keyOf = some key := h
    rw [JobQueue.takeAt, hjob] at h
    cases h
  | some job => exact ⟨job, rfl, (keyOfAction_runJob hjob).symm.trans h⟩

/-- Relays that are alike start in lockstep, with whatever queues. -/
theorem Alike.lockstep (h : Alike key ρ r s) (queue queue' : List Job) :
    Lockstep key ρ queue queue' { r with jobs := ⟨queue⟩ } { s with jobs := ⟨queue'⟩ } :=
  { h with jobs := ⟨[], (List.append_nil _).symm, (List.append_nil _).symm⟩ }

theorem Alike.keyOfAction (h : Alike key ρ r s) (hact : ρ.Matches r s act act')
    (hkey : r.keyOfAction act = some key) : s.keyOfAction act' = some key := by
  cases hact with
  | job hjob hjob' =>
    rw [keyOfAction_runJob hjob] at hkey
    rw [keyOfAction_runJob hjob', Renaming.client_job]
    exact (h.keyOf_iff _).mpr hkey
  | named hplace =>
    cases act with
    | accept => exact hkey
    | runJob place => exact absurd rfl (hplace place)
    | _ => exact (h.keyOf_iff _).mpr hkey

/-- **The same action keeps relays alike.** -/
theorem Alike.perform (h : Alike key ρ r s) (hr : r.census.Coherent) (hs : s.registry.Sound)
    (hkey : r.keyOfAction act = some key) (hact : ρ.Matches r s act act')
    (hmeets : ρ.Meets r (r.perform act) s) :
    s.outcome act' = r.outcome act ∧
      Lockstep key ρ (r.jobsLeft act) (s.jobsLeft act') (r.perform act) (s.perform act') := by
  have hstart := h.lockstep (r.jobsLeft act) (s.jobsLeft act')
  cases hact with
  | @job place place' job hjob hjob' =>
    refine ⟨rfl, ?_⟩
    rw [keyOfAction_runJob hjob] at hkey
    have hcoherent : { r with jobs := ⟨r.jobs.pending.eraseIdx place⟩ }.census.Coherent := hr
    rw [perform_runJob hjob] at hmeets
    rw [perform_runJob hjob, perform_runJob hjob']
    exact hstart.runJob hcoherent hkey hmeets.path
  | named hplace =>
    cases act with
    | accept key' subprotocol draw =>
      cases hkey
      have hnew : (r.accept key subprotocol draw).2.nextClient ≠ r.nextClient := by
        simp [accept, Relay.pathFor, numberConnection, nextClient]
      exact ⟨rfl, (hstart.accept (hmeets.client hnew) hmeets.path subprotocol draw).2⟩
    | greet id =>
      obtain ⟨hresult, hrelays⟩ := hstart.update (f := Client.greet) hkey
        (fun _ _ _ => Client.greet_relocate) fun _ _ => Client.home_of_greet
      exact ⟨hresult, hrelays⟩
    | receive id bytes =>
      obtain ⟨hresult, hrelays⟩ := hstart.received hr hkey bytes
      exact ⟨hresult, hrelays⟩
    | unpack id bytes =>
      obtain ⟨hresult, hrelays⟩ := hstart.update (f := fun c => Prod.snd <$> c.unpack bytes) hkey
        (fun _ _ _ => Client.map_unpack_relocate bytes) fun _ _ => Client.home_of_map_unpack
      exact ⟨hresult, hrelays⟩
    | pack id destination m =>
      obtain ⟨hresult, hrelays⟩ := hstart.update (f := fun c => Prod.snd <$> c.pack destination m) hkey
        (fun _ _ _ => Client.map_pack_relocate destination m) fun _ _ => Client.home_of_map_pack
      exact ⟨hresult, hrelays⟩
    | send id m =>
      obtain ⟨hresult, hrelays⟩ := hstart.update (f := fun c => c.send m) hkey
        (fun _ _ _ => Client.send_relocate m) fun _ _ => Client.home_of_send
      exact ⟨hresult, hrelays⟩
    | answer id =>
      obtain ⟨hresult, hrelays⟩ := hstart.sendServerAuth hr hkey hmeets.path
      exact ⟨hresult, hrelays⟩
    | disconnect id =>
      obtain ⟨c, hc, hkey'⟩ := keyOf_eq_some.mp hkey
      obtain ⟨hresult, hrelays⟩ := hstart.disconnected hr.sound hs hkey fun d hd => by
        cases hc.symm.trans hd
        exact hkey' ▸ hasPath_of_coherent hr hc
      exact ⟨hresult, hrelays⟩
    | runJob place => exact absurd rfl (hplace place)
    | fail id e => exact ⟨rfl, hstart.fail id e⟩
    | close id code => exact ⟨rfl, hstart.close id code⟩
    | collect id => exact ⟨rfl, hstart.modifyClient_same (fun _ => rfl) fun _ _ _ => rfl⟩
    | hangUp id => exact ⟨rfl, hstart.modifyClient_same (fun _ => rfl) fun _ _ _ => rfl⟩

/-! ## Nothing else matters -/

theorem index_lt_of_keyOf {id : ClientId} (h : r.keyOf id = some key) : id.index < r.clients.size := by
  obtain ⟨c, hc, -⟩ := keyOf_eq_some.mp h
  exact (Array.getElem?_eq_some_iff.mp hc).1

theorem HasPath.index_lt {path : PathId} (h : r.HasPath path key) :
    path.index < r.registry.paths.size := by
  obtain ⟨p, hp, -⟩ := h
  exact (Array.getElem?_eq_some_iff.mp hp).1

theorem ne_nextClient {id : ClientId} (h : r.keyOf id = some key) : id ≠ r.nextClient := by
  rintro rfl
  exact Nat.lt_irrefl _ (index_lt_of_keyOf h)

theorem HasPath.ne_nextPath {path : PathId} (h : r.HasPath path key) : path ≠ r.nextPath := by
  rintro rfl
  exact Nat.lt_irrefl _ h.index_lt

theorem Alike.agrees_meeting (h : Alike key ρ r s) : ρ.Agrees (ρ.meeting r s) key r where
  client _ hid := Equiv.swap_apply_of_ne_of_ne (ρ.client.injective.ne (ne_nextClient hid))
    (ne_nextClient ((h.keyOf_iff _).mpr hid))
  path _ hpath := Equiv.swap_apply_of_ne_of_ne (ρ.path.injective.ne hpath.ne_nextPath)
    (h.hasPath hpath).ne_nextPath

theorem keyOf_of_subject {id : ClientId} (h : r.keyOfAction act = some key)
    (hid : r.subject? act = some id) : r.keyOf id = some key := by
  have hbind : (r.subject? act).bind r.keyOf = some key := by
    cases act with
    | accept => cases hid
    | _ => exact h
  rw [hid] at hbind
  exact hbind

/-- The jobs that an action puts off are the same ones under other names. -/
theorem Lockstep.jobsAdded (h : Lockstep key ρ (r.jobsLeft act) (s.jobsLeft act') (r.perform act)
    (s.perform act')) : s.jobsAdded act' = (r.jobsAdded act).map ρ.job := by
  obtain ⟨added, hadded, hadded'⟩ := h.jobs
  rw [jobsAdded_eq hadded, jobsAdded_eq hadded']

/-- **Nothing else matters.** The same action on relays that are alike has the same result and leaves relays
that are alike, for some names of what it makes. -/
theorem Alike.exists_perform (h : Alike key ρ r s) (hr : r.census.Coherent) (hs : s.registry.Sound)
    (hkey : r.keyOfAction act = some key) (hact : ρ.Matches r s act act') :
    s.outcome act' = r.outcome act ∧
      ∃ ρ' : Renaming, ρ.Agrees ρ' key r ∧ ρ'.Meets r (r.perform act) s ∧
        Alike key ρ' (r.perform act) (s.perform act') ∧
        s.jobsAdded act' = (r.jobsAdded act).map ρ'.job := by
  have hagrees := h.agrees_meeting
  have hmeets := Renaming.meets_meeting ρ r (r.perform act) s
  have hact' := hact.congr fun id hid => hagrees.client id (keyOf_of_subject hkey hid)
  obtain ⟨houtcome, hstep⟩ := (h.congr hr hagrees).perform hr hs hkey hact' hmeets
  exact ⟨houtcome, ρ.meeting r s, hagrees, hmeets, hstep.toAlike, hstep.jobsAdded⟩

/-! ## Jobs have clients -/

/-- Whoever a job is for is there. -/
def Attended (r : Relay) : Prop :=
  ∀ job ∈ r.jobs.pending, (r.keyOf job.client).isSome

theorem clients_modifyClient_of_none {id : ClientId} (h : r.client? id = none) (f : Client → Client) :
    (r.modifyClient id f).clients = r.clients := by
  apply Array.ext_getElem?
  intro i
  have hi := client?_modifyClient r id ⟨i⟩ f
  split at hi
  · next heq =>
    subst heq
    rw [h] at hi
    exact hi.trans h.symm
  · exact hi

theorem update_of_none {id : ClientId} (h : r.client? id = none)
    (f : Client → Except ProtocolError Client) : r.update id f = (.ok (), r) := by
  rw [update, h]

theorem runJob_of_none {job : Job} (h : r.client? job.client = none) : r.runJob job = r := by
  cases job with
  | answer id =>
    have hanswer : r.sendServerAuth id = (.ok (), r) := by
      rw [sendServerAuth, show r.client? id = none from h]
    rw [runJob, hanswer]
  | deliver id => rw [runJob, show r.client? id = none from h]

/-- Nobody changes and nothing is put off by somebody who is not there. -/
theorem perform_of_keyOfAction_eq_none (h : r.keyOfAction act = none) :
    (r.perform act).clients = r.clients ∧ (r.perform act).jobs.pending ⊆ r.jobs.pending := by
  have hnone : ∀ {id : ClientId}, r.keyOf id = none → r.client? id = none :=
    Option.map_eq_none_iff.mp
  have hsame : ∀ {s : Relay}, s = r → s.clients = r.clients ∧ s.jobs.pending ⊆ r.jobs.pending := by
    rintro s rfl
    exact ⟨rfl, List.Subset.refl _⟩
  cases act with
  | accept => cases h
  | greet | unpack | pack | send => exact hsame (congrArg Prod.snd (update_of_none (hnone h) _))
  | receive => exact hsame (by rw [perform, received, hnone h])
  | answer => exact hsame (by rw [perform, sendServerAuth, hnone h])
  | disconnect => exact hsame (by rw [perform, disconnected, hnone h])
  | runJob place =>
    cases hjob : r.jobs.pending[place]? with
    | none =>
      refine hsame ?_
      rw [perform, JobQueue.takeAt, hjob]
      rfl
    | some job =>
      rw [keyOfAction_runJob hjob] at h
      have hclient : client? { r with jobs := ⟨r.jobs.pending.eraseIdx place⟩ } job.client = none :=
        hnone h
      rw [perform_runJob hjob, runJob_of_none hclient]
      exact ⟨rfl, List.eraseIdx_subset⟩
  | fail id e =>
    refine ⟨?_, by rw [perform, jobs_fail]; exact List.Subset.refl _⟩
    rw [perform, fail]
    split <;> exact clients_modifyClient_of_none (hnone h) _
  | close | collect | hangUp =>
    exact ⟨clients_modifyClient_of_none (hnone h) _, List.Subset.refl _⟩

theorem attended_perform (hr : r.census.Coherent) (h : r.Attended) (act : Action) :
    (r.perform act).Attended := by
  intro job hjob
  cases hkey : r.keyOfAction act with
  | none =>
    obtain ⟨hclients, hjobs⟩ := perform_of_keyOfAction_eq_none hkey
    rw [keyOf, client?, hclients]
    exact h job (hjobs hjob)
  | some key =>
    have hconfined := confined_perform hr hkey
    rcases hconfined.news job hjob with hold | hnew
    · obtain ⟨owner, howner⟩ := Option.isSome_iff_exists.mp (h job hold)
      by_cases heq : owner = key
      · subst heq
        exact Option.isSome_iff_exists.mpr ⟨owner, hconfined.keyOf job.client howner⟩
      · obtain ⟨c, hc, rfl⟩ := keyOf_eq_some.mp howner
        have hc' := (hconfined.client job.client c heq).mpr hc
        exact Option.isSome_iff_exists.mpr ⟨_, keyOf_eq_some.mpr ⟨c, hc', rfl⟩⟩
    · exact Option.isSome_iff_exists.mpr ⟨key, hnew⟩

theorem attended_run (service : Service) (actions : List Action) :
    ((new service).run actions).Attended := by
  have hstart : (new service).Attended := by
    intro job hjob
    cases hjob
  exact (run_induction (P := fun r => r.census.Coherent ∧ r.Attended) ⟨coherent_new service, hstart⟩
    (fun r act h => ⟨coherent_perform h.1 act, attended_perform h.1 h.2 act⟩) actions).2

/-! ## One after the other -/

/-- Exchanges two names, on a condition. -/
def exchange {α : Type} [DecidableEq α] (p : Prop) [Decidable p] (x y : α) : Equiv.Perm α :=
  if p then Equiv.swap x y else .refl α

section Exchanges

variable {α : Type} [DecidableEq α] {p : Prop} [Decidable p] {x y : α}

theorem symm_exchange : (exchange p x y).symm = exchange p x y := by
  unfold exchange
  split
  · exact Equiv.symm_swap x y
  · rfl

theorem exchange_of_ne {z : α} (hx : z ≠ x) (hy : z ≠ y) : exchange p x y z = z := by
  unfold exchange
  split
  · exact Equiv.swap_apply_of_ne_of_ne hx hy
  · rfl

/-- Of two names that may be taken, the first one becomes whichever is free after the other. -/
theorem exchange_left {q : Prop} [Decidable q] {z : α} (hq : q) (h : z = x ∨ z = y) :
    exchange (z ≠ x ∧ q) x y x = z := by
  unfold exchange
  split
  · next hboth =>
    rw [Equiv.swap_apply_left]
    exact (h.resolve_left hboth.1).symm
  · next hnot => exact (Decidable.not_not.mp fun hne => hnot ⟨hne, hq⟩).symm

end Exchanges

/-- Other names for what two actions make: where both make something, each has the next name if it comes
first, and the one after the next if it comes second. -/
def crossing (r : Relay) (act act' : Action) : Renaming where
  client := exchange ((r.perform act).nextClient ≠ r.nextClient ∧
    (r.perform act').nextClient ≠ r.nextClient) r.nextClient ⟨r.clients.size + 1⟩
  path := exchange ((r.perform act).nextPath ≠ r.nextPath ∧
    (r.perform act').nextPath ≠ r.nextPath) r.nextPath ⟨r.registry.paths.size + 1⟩

theorem crossing_comm (r : Relay) (act act' : Action) : r.crossing act act' = r.crossing act' act := by
  simp only [crossing, and_comm]

theorem symm_crossing (r : Relay) (act act' : Action) :
    (r.crossing act act').symm = r.crossing act act' := by
  unfold crossing Renaming.symm
  rw [symm_exchange, symm_exchange]

/-- What is there already keeps its name. -/
theorem agrees_crossing (key : PublicKey) (r : Relay) (act act' : Action) :
    Renaming.refl.Agrees (r.crossing act act') key r where
  client id h := by
    refine exchange_of_ne (ne_nextClient h) fun heq => ?_
    have hlt := index_lt_of_keyOf h
    rw [heq] at hlt
    exact absurd hlt (by simp)
  path path h := by
    refine exchange_of_ne h.ne_nextPath fun heq => ?_
    have hlt := h.index_lt
    rw [heq] at hlt
    exact absurd hlt (by simp)

theorem meets_crossing (r : Relay) (act act' : Action) :
    (r.crossing act act').Meets r (r.perform act') (r.perform act) :=
  ⟨fun hnew => exchange_left hnew (nextClient_perform r act),
    fun hnew => exchange_left hnew (nextPath_perform r act)⟩

/-- What belongs to a key is the same after an action of another key. -/
theorem alike_crossing (hr : r.census.Coherent) (h : r.keyOfAction act = some key) (hne : other ≠ key)
    (act' : Action) : Alike other (r.crossing act act') r (r.perform act) :=
  ((Alike.refl other r).of_confined (confined_perform hr h) hne).symm.congr hr
    (agrees_crossing other r act act')

/-- A job still waits after an action of another key. -/
theorem waits_after {place : Nat} {job : Job} (hjob : r.jobs.pending[place]? = some job)
    (h : r.keyOfAction act ≠ r.keyOf job.client) :
    ∃ place', (Action.runJob place).after act = .runJob place' ∧
      (r.perform act).jobs.pending[place']? = some job := by
  have hleft : ∀ {place' : Nat}, (r.jobsLeft act)[place']? = some job →
      (r.perform act).jobs.pending[place']? = some job := by
    intro place' hleft
    rw [pending_perform, List.getElem?_append_left (List.getElem?_eq_some_iff.mp hleft).1, hleft]
  cases act with
  | runJob ran =>
    have hne : ran ≠ place := by
      rintro rfl
      exact h (keyOfAction_runJob hjob)
    refine ⟨_, rfl, hleft ?_⟩
    rw [jobsLeft, List.getElem?_eraseIdx]
    split
    · next hlt =>
      rw [if_neg (by omega), Nat.sub_add_cancel (by omega)]
      exact hjob
    · next hlt =>
      rw [if_pos (by omega)]
      exact hjob
  | _ => exact ⟨place, rfl, hleft hjob⟩

theorem matches_crossing (h : r.keyOfAction act = some key) (h' : r.keyOfAction act' = some other)
    (hne : other ≠ key) :
    (r.crossing act act').Matches r (r.perform act) act' (act'.after act) := by
  have hsame : Renaming.refl.Matches r (r.perform act) act' (act'.after act) := by
    by_cases hplace : ∀ place, act' ≠ .runJob place
    · have hnamed : Renaming.refl.Matches r (r.perform act) act' (Renaming.refl.action act') :=
        .named hplace
      rw [Renaming.action_refl] at hnamed
      rw [Action.after_eq_self hplace]
      exact hnamed
    · obtain ⟨place, rfl⟩ := not_forall_not.mp hplace
      obtain ⟨job, hjob, hid⟩ := exists_job h'
      obtain ⟨place', hafter, hwaits⟩ := waits_after hjob fun heq : r.keyOfAction act = _ =>
        hne (Option.some.inj (hid.symm.trans (heq.symm.trans h)))
      rw [hafter]
      exact .job hjob (by rw [Renaming.job_refl]; exact hwaits)
  exact hsame.congr fun id hid => (agrees_crossing other r act act').client id (keyOf_of_subject h' hid)

/-- An action does the same after one of another key as before it. -/
theorem step_after (hr : r.census.Coherent) (h : r.keyOfAction act = some key)
    (h' : r.keyOfAction act' = some other) (hne : other ≠ key) :
    (r.perform act).outcome (act'.after act) = r.outcome act' ∧
      (r.perform act).keyOfAction (act'.after act) = some other ∧
      Lockstep other (r.crossing act act') (r.jobsLeft act') ((r.perform act).jobsLeft (act'.after act))
        (r.perform act') ((r.perform act).perform (act'.after act)) := by
  have halike := alike_crossing hr h hne act'
  have hmatches := matches_crossing h h' hne
  obtain ⟨houtcome, hstep⟩ := halike.perform hr (coherent_perform hr act).sound h' hmatches
    (meets_crossing r act act')
  exact ⟨houtcome, halike.keyOfAction hmatches h', hstep⟩

theorem alike_commuted (hr : r.census.Coherent) (h : r.keyOfAction act = some key)
    (h' : r.keyOfAction act' = some other) (hne : other ≠ key) (k : PublicKey) :
    Alike k (r.crossing act act') ((r.perform act').perform (act.after act'))
      ((r.perform act).perform (act'.after act)) := by
  obtain ⟨-, hafter, hstep⟩ := step_after hr h' h hne.symm
  obtain ⟨-, hafter', hstep'⟩ := step_after hr h h' hne
  rw [crossing_comm] at hstep
  have hfirst := confined_perform hr h
  have hfirst' := confined_perform hr h'
  have hsecond := confined_perform (coherent_perform hr act') hafter
  have hsecond' := confined_perform (coherent_perform hr act) hafter'
  by_cases hk : k = key
  · subst hk
    rw [← symm_crossing]
    exact (hstep.toAlike.of_confined hsecond' hne.symm).symm
  by_cases hk' : k = other
  · subst hk'
    exact hstep'.toAlike.of_confined hsecond hne
  · -- Neither action has anything to do with the key.
    have hstart := (Alike.refl k r).congr hr (agrees_crossing k r act act')
    have hend := ((hstart.of_confined hfirst hk).of_confined hsecond' hk').symm
    rw [symm_crossing] at hend
    exact (hend.of_confined hfirst' hk').of_confined hsecond hk

/-- The jobs that an action takes out of the queue. -/
def jobsDone (r : Relay) : Action → List Job
  | .runJob place => r.jobs.pending[place]?.toList
  | _ => []

theorem perm_jobsDone (r : Relay) (act : Action) :
    (r.jobsDone act ++ r.jobsLeft act).Perm r.jobs.pending := by
  cases act with
  | runJob place =>
    cases hjob : r.jobs.pending[place]? with
    | none =>
      rw [jobsDone, jobsLeft, hjob, List.eraseIdx_of_length_le (List.getElem?_eq_none_iff.mp hjob)]
      exact .refl _
    | some job =>
      obtain ⟨hlt, rfl⟩ := List.getElem?_eq_some_iff.mp hjob
      rw [jobsDone, jobsLeft, hjob]
      exact List.getElem_cons_eraseIdx_perm hlt
  | _ => exact .refl _

/-- What was waiting or is put off is taken out or waits. -/
theorem count_pending (r : Relay) (act : Action) (job : Job) :
    (r.jobsDone act).count job + (r.perform act).jobs.pending.count job =
      r.jobs.pending.count job + (r.jobsAdded act).count job := by
  have hdone := (perm_jobsDone r act).count_eq job
  rw [List.count_append] at hdone
  rw [pending_perform, List.count_append]
  omega

theorem jobsDone_of_matches (hact : ρ.Matches r s act act') :
    s.jobsDone act' = (r.jobsDone act).map ρ.job := by
  cases hact with
  | job hjob hjob' =>
    rw [jobsDone, jobsDone, hjob, hjob']
    rfl
  | named hplace =>
    cases act with
    | runJob place => exact absurd rfl (hplace place)
    | _ => rfl

theorem pending_commuted (hr : r.census.Coherent) (hattended : r.Attended)
    (h : r.keyOfAction act = some key) (h' : r.keyOfAction act' = some other) (hne : other ≠ key) :
    ((r.perform act).perform (act'.after act)).jobs.pending.Perm
      (((r.perform act').perform (act.after act')).jobs.pending.map (r.crossing act act').job) := by
  have hinvolutive : Function.Involutive (r.crossing act act').job := fun job => by
    have hback := (r.crossing act act').symm_job_job job
    rw [symm_crossing] at hback
    exact hback
  have hcount : ∀ (jobs : List Job) job, (jobs.map (r.crossing act act').job).count job =
      jobs.count ((r.crossing act act').job job) := fun jobs job => by
    conv_lhs => rw [← hinvolutive job]
    exact List.count_map_of_injective jobs _ hinvolutive.injective _
  -- Whatever waits at the start is for someone who is there, and keeps its name.
  have hwaiting : r.jobs.pending.map (r.crossing act act').job = r.jobs.pending := by
    refine List.map_congr_left (fun job hjob => ?_) |>.trans (List.map_id _)
    obtain ⟨owner, howner⟩ := Option.isSome_iff_exists.mp (hattended job hjob)
    rw [Renaming.job_congr ((agrees_crossing owner r act act').client job.client howner),
      Renaming.job_refl, id]
  obtain ⟨-, -, hstep⟩ := step_after hr h' h hne.symm
  obtain ⟨-, -, hstep'⟩ := step_after hr h h' hne
  have hmatches := matches_crossing h' h hne.symm
  rw [crossing_comm] at hstep hmatches
  have hmatches' := matches_crossing h h' hne
  refine List.perm_iff_count.mpr fun job => ?_
  have hfirst := count_pending r act job
  have hfirst' := count_pending r act' ((r.crossing act act').job job)
  have hsecond := count_pending (r.perform act') (act.after act') ((r.crossing act act').job job)
  have hsecond' := count_pending (r.perform act) (act'.after act) job
  rw [jobsDone_of_matches hmatches, hstep.jobsAdded, hcount, hcount, hinvolutive] at hsecond
  rw [jobsDone_of_matches hmatches', hstep'.jobsAdded, hcount, hcount] at hsecond'
  have hsame := hcount r.jobs.pending job
  rw [hwaiting] at hsame
  rw [hcount]
  omega

/-! ## Runs -/

/-- **Isolation.** Every client is on a path of its key. An action of a key changes nothing that belongs to
another key. How it ends, what it makes of the key's clients and paths, and what it puts off depend on nothing
but the service, the action, and the key's clients and paths. So it makes no difference which of two actions
of different keys comes first, but for the names of what they make, the order of the jobs, the numbers of
paths and connections, and the counters. -/
theorem isolated_run (service : Service) (actions : List Action)
    (h : ((new service).run actions).keyOfAction act = some key) :
    let r := (new service).run actions
    (∀ id c, r.client? id = some c → r.HasPath c.path c.initiatorKey) ∧
    Confined key r (r.perform act) ∧
    (∀ (service' : Service) (actions' : List Action) (ρ : Renaming) (act' : Action),
      let s := (new service').run actions'
      Alike key ρ r s → ρ.Matches r s act act' →
        s.outcome act' = r.outcome act ∧
        ∃ ρ' : Renaming, ρ.Agrees ρ' key r ∧ ρ'.Meets r (r.perform act) s ∧
          Alike key ρ' (r.perform act) (s.perform act') ∧
          s.jobsAdded act' = (r.jobsAdded act).map ρ'.job) ∧
    (∀ act' other, r.keyOfAction act' = some other → other ≠ key →
      (r.perform act').outcome (act.after act') = r.outcome act ∧
      (r.perform act).outcome (act'.after act) = r.outcome act' ∧
      (∀ k, Alike k (r.crossing act act') ((r.perform act').perform (act.after act'))
        ((r.perform act).perform (act'.after act))) ∧
      ((r.perform act).perform (act'.after act)).jobs.pending.Perm
        (((r.perform act').perform (act.after act')).jobs.pending.map (r.crossing act act').job)) := by
  intro r
  have hr := coherent_run service actions
  refine ⟨fun id c hc => hasPath_of_coherent hr hc, confined_perform hr h, ?_, ?_⟩
  · intro service' actions' ρ act' s halike hact
    exact halike.exists_perform hr (coherent_run service' actions').sound h hact
  · intro act' other h' hne
    obtain ⟨houtcome, -, -⟩ := step_after hr h' h hne.symm
    obtain ⟨houtcome', -, -⟩ := step_after hr h h' hne
    exact ⟨houtcome, houtcome', alike_commuted hr h h' hne,
      pending_commuted hr (attended_run service actions) h h' hne⟩

/-- If all who came have one key, everybody who is there has it. -/
theorem keyOf_run (service : Service) {actions : List Action} {id : ClientId} {c : Client}
    (h : ∀ other subprotocol draw, .accept other subprotocol draw ∈ actions → other = key)
    (hc : ((new service).run actions).client? id = some c) :
    ((new service).run actions).keyOf id = some key := by
  suffices hkey : c.initiatorKey = key by rw [keyOf, hc, Option.map_some, hkey]
  induction actions using List.reverseRecOn generalizing c with
  | nil => simp [new, client?] at hc
  | append_singleton actions act ih =>
    rw [run_concat] at hc
    rcases steps_perform (coherent_run service actions) act hc with ⟨d, hd, hsteps⟩ |
      ⟨path, other, subprotocol, draw, -, rfl, rfl, -⟩
    · rw [hsteps.later.initiatorKey_eq]
      exact ih (fun other subprotocol draw hmem => h other subprotocol draw (List.mem_append_left _ hmem)) hd
    · exact h other subprotocol draw (List.mem_append_right _ (.head _))

/-- Somebody comes with another key. -/
def Displaced.stranger : Action :=
  .accept (pair 8).publicKey "v1.saltyrtc.org" ⟨pair 16, ⟨Octets.fit [3]⟩, ⟨0, 0⟩⟩

/-- It does not matter which of the two comes first, a frame of the second initiator to the responder or the
stranger. -/
theorem isolated_run_displaced :
    let frame := Action.receive ⟨2⟩ Displaced.reply
    Displaced.relay.keyOfAction frame = some (Displaced.pair 1).publicKey ∧
    (Displaced.relay.perform Displaced.stranger).outcome frame = Displaced.relay.outcome frame ∧
    (∀ k, Alike k (Displaced.relay.crossing frame Displaced.stranger)
      ((Displaced.relay.perform Displaced.stranger).perform frame)
      ((Displaced.relay.perform frame).perform Displaced.stranger)) ∧
    ((Displaced.relay.perform frame).perform Displaced.stranger).jobs.pending.Perm
      (((Displaced.relay.perform Displaced.stranger).perform frame).jobs.pending.map
        (Displaced.relay.crossing frame Displaced.stranger).job) := by
  intro frame
  have hkeys : ∀ other subprotocol draw, .accept other subprotocol draw ∈ Displaced.actions →
      other = (Displaced.pair 1).publicKey := by
    rintro other subprotocol draw hmem
    simp only [Displaced.actions, Displaced.connect, List.mem_cons, Action.accept.injEq] at hmem
    simp_all
  obtain ⟨-, peer, -, -, -, -, -, -, hd, -⟩ := Displaced.faces
  have hkey : Displaced.relay.keyOf ⟨2⟩ = some (Displaced.pair 1).publicKey :=
    keyOf_run Displaced.service hkeys hd
  have hsubject : ∀ r : Relay, r.keyOfAction frame = r.keyOf ⟨2⟩ := fun _ => rfl
  have hframe : Displaced.relay.keyOfAction frame = some (Displaced.pair 1).publicKey :=
    (hsubject _).trans hkey
  have hne : (Displaced.pair 8).publicKey ≠ (Displaced.pair 1).publicKey := by decide +kernel
  have hrelay : (new Displaced.service).run Displaced.actions = Displaced.relay := rfl
  obtain ⟨-, -, -, hcommutes⟩ := isolated_run Displaced.service Displaced.actions hframe
  rw [hrelay] at hcommutes
  have hafter : frame.after Displaced.stranger = frame := rfl
  have hafter' : Displaced.stranger.after frame = Displaced.stranger := rfl
  obtain ⟨houtcome, -, halike, hjobs⟩ := hcommutes Displaced.stranger _ rfl hne
  rw [hafter] at houtcome halike hjobs
  rw [hafter'] at halike hjobs
  exact ⟨hframe, houtcome, halike, hjobs⟩

end Relay

end Rendezvous
