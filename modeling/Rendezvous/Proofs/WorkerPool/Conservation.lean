import Rendezvous.Proofs.WorkerPool.Steps
import Rendezvous.Proofs.WorkerPool.Capacity

/-!
# No permit is lost

Between any two steps, each permit for a worker is free or held by a job that runs, and each one for admission is
free or held by a job with a caller that is somewhere on the floor. A step only moves permits, so their sums stay,
and the bounds follow from the sums alone.

* **`Floor.Balanced`** — the sums, with what they need to be kept: nobody waits for a permit while one is free,
  only jobs with a caller wait outside, and the workers are closed after the admission.
* **`Floor.balanced_run`** — the floor of a new pool is balanced, and stays so whatever is done.
* **`Floor.Balanced.run_closed`** — once the workers are closed no job gets one.
* **`Floor.Balanced.keeps`** — the bounds of a balanced floor.
-/

namespace Rendezvous

namespace Floor

variable {f f' : Floor} {step : Step} {notices : List PoolNotice}

/-- How many of some jobs have a caller. -/
def callers (l : List Ticket) : Nat :=
  l.countP fun t => !t.deferred

@[simp] theorem callers_nil : callers [] = 0 := rfl

@[simp] theorem callers_append (l m : List Ticket) : callers (l ++ m) = callers l + callers m :=
  List.countP_append

@[simp] theorem callers_cons (t : Ticket) (l : List Ticket) :
    callers (t :: l) = callers l + if t.deferred then 0 else 1 := by
  cases h : t.deferred <;> simp [callers, h]

theorem callers_erase {t : Ticket} {l : List Ticket} (h : t ∈ l) : callers l = callers (t :: l.erase t) :=
  (List.perm_cons_erase h).countP_eq _

theorem length_admitted (f : Floor) : f.admitted.length =
    callers f.arriving + callers f.pool.workers.waiting + callers f.pool.running + callers f.leaving := by
  simp only [admitted, callers, List.filter_append, List.length_append, List.countP_eq_length_filter]

/-! ## What a step keeps -/

theorem Turn.size_eq (h : Turn f step f' notices) : f'.pool.size = f.pool.size := by
  cases h <;> rfl

theorem Turn.overflow_eq (h : Turn f step f' notices) : f'.pool.overflow = f.pool.overflow := by
  cases h <;> rfl

/-- A worker that is not free any more runs a job, and one that runs none any more is free. -/
theorem Turn.workers_eq (h : Turn f step f' notices) :
    f'.pool.workers.free + f'.pool.running.length = f.pool.workers.free + f.pool.running.length := by
  cases h with
  | started t ht hopen hfree =>
    simp only [List.length_append, List.length_singleton]
    omega
  | finished t ht hnone =>
    have := List.length_erase_of_mem ht
    have := List.length_pos_of_mem ht
    simp only
    omega
  | relieved t ht next rest hnext =>
    have := List.length_erase_of_mem ht
    have := List.length_pos_of_mem ht
    simp only [List.length_append, List.length_singleton]
    omega
  | _ => rfl

/-- An admission that is not free any more is held by a job, and one that is held by none any more is free. -/
theorem Turn.admission_eq (hcallers : ∀ t ∈ f.pool.admission.waiting, t.deferred = false)
    (h : Turn f step f' notices) :
    f'.pool.admission.free + f'.admitted.length = f.pool.admission.free + f.admitted.length := by
  -- A job on the floor is in one of four places, and what a step takes out of one it puts into another.
  rw [length_admitted, length_admitted]
  cases h with
  | nothing | saturated | unadmitted | waitsOutside | shut => rfl
  | admitted number hopen hfree =>
    simp only [callers_append, callers_cons, callers_nil, Bool.false_eq_true, if_false]
    omega
  | brought number => simp
  | turnedAway t ht | waitsInside t ht | started t ht =>
    have := callers_erase ht
    simp only [callers_append, callers_cons, callers_nil] at this ⊢
    omega
  | finished t ht hnone =>
    have := callers_erase ht
    simp only [callers_append, callers_cons, callers_nil, hnone] at this ⊢
    omega
  | relieved t ht next rest hnext =>
    have := callers_erase ht
    simp only [callers_append, callers_cons, callers_nil, hnext] at this ⊢
    omega
  | leftDeferred t ht hcaller | left t ht hcaller =>
    have := callers_erase ht
    simp [hcaller] at this ⊢
    omega
  | letIn t ht hcaller next rest hnext =>
    have := callers_erase ht
    -- The one who leaves has a caller, and so has the one who is let in, so the permit changes hands.
    have hnextCaller : next.deferred = false := hcallers next (by simp [hnext])
    simp [hcaller, hnextCaller] at this ⊢
    omega
  | cleared hshut =>
    simp only [callers_append, callers_nil]
    omega

theorem Turn.fair_workers (hfair : f.pool.workers.Fair) (h : Turn f step f' notices) :
    f'.pool.workers.Fair := by
  -- A step that is about workers does one thing to their stock: it asks, gives back or closes.
  cases h with
  | waitsInside t ht hopen hfull =>
    have hasked := hfair.acquire t
    rwa [Permits.acquire_of_full hopen hfull] at hasked
  | started t ht hopen hfree =>
    have hasked := hfair.acquire t
    rwa [Permits.acquire_of_free hopen hfree] at hasked
  | finished t ht hnone =>
    have hgiven := hfair.release
    rwa [Permits.release_of_nil hnone] at hgiven
  | relieved t ht next rest hnext =>
    have hgiven := hfair.release
    rwa [Permits.release_of_cons hnext] at hgiven
  | cleared hshut => exact Permits.fair_close _
  | _ => exact hfair

theorem Turn.fair_admission (hfair : f.pool.admission.Fair) (h : Turn f step f' notices) :
    f'.pool.admission.Fair := by
  cases h with
  | waitsOutside number hopen hfull =>
    have hasked := hfair.acquire ⟨number, false⟩
    rwa [Permits.acquire_of_full hopen hfull] at hasked
  | admitted number hopen hfree =>
    have hasked := hfair.acquire ⟨number, false⟩
    rwa [Permits.acquire_of_free hopen hfree] at hasked
  | left t ht hcaller hnone =>
    have hgiven := hfair.release
    rwa [Permits.release_of_nil hnone] at hgiven
  | letIn t ht hcaller next rest hnext =>
    have hgiven := hfair.release
    rwa [Permits.release_of_cons hnext] at hgiven
  | shut => exact Permits.fair_close _
  | _ => exact hfair

theorem Turn.callers_outside (hcallers : ∀ t ∈ f.pool.admission.waiting, t.deferred = false)
    (h : Turn f step f' notices) : ∀ t ∈ f'.pool.admission.waiting, t.deferred = false := by
  cases h with
  | waitsOutside number =>
    intro t ht
    rcases List.mem_append.mp ht with ht | ht
    · exact hcallers t ht
    · rw [List.mem_singleton.mp ht]
  | letIn t ht hcaller next rest hnext =>
    exact fun t ht => hcallers t (hnext ▸ List.mem_cons_of_mem next ht)
  | shut => exact fun t ht => absurd ht List.not_mem_nil
  | _ => exact hcallers

theorem Turn.closed_order (horder : f.pool.workers.closed = true → f.pool.admission.closed = true)
    (h : Turn f step f' notices) : f'.pool.workers.closed = true → f'.pool.admission.closed = true := by
  cases h with
  | shut => exact fun _ => rfl
  | cleared hshut => exact fun _ => hshut
  | _ => exact horder

/-! ## Balanced floors -/

/-- The permits of a floor are all there. -/
structure Balanced (s : WorkerSettings) (f : Floor) : Prop where
  size : f.pool.size = s.workers
  overflow : f.pool.overflow = s.overflow
  workers : f.pool.workers.free + f.pool.running.length = s.workers.toNat
  admission : f.pool.admission.free + f.admitted.length = s.capacity
  fairWorkers : f.pool.workers.Fair
  fairAdmission : f.pool.admission.Fair
  callers : ∀ t ∈ f.pool.admission.waiting, t.deferred = false
  order : f.pool.workers.closed = true → f.pool.admission.closed = true

variable {s : WorkerSettings}

theorem balanced_of_idle (s : WorkerSettings) : Balanced s (of (.idle s)) where
  size := rfl
  overflow := rfl
  workers := rfl
  admission := rfl
  fairWorkers := Permits.fair_of_nobody rfl
  fairAdmission := Permits.fair_of_nobody rfl
  callers := fun _ ht => absurd ht List.not_mem_nil
  order := id

theorem Balanced.turn (hf : Balanced s f) (h : Turn f step f' notices) : Balanced s f' where
  size := h.size_eq.trans hf.size
  overflow := h.overflow_eq.trans hf.overflow
  workers := h.workers_eq.trans hf.workers
  admission := (h.admission_eq hf.callers).trans hf.admission
  fairWorkers := h.fair_workers hf.fairWorkers
  fairAdmission := h.fair_admission hf.fairAdmission
  callers := h.callers_outside hf.callers
  order := h.closed_order hf.order

theorem Balanced.run (hf : Balanced s f) (steps : List Step) : Balanced s (f.run steps).1 := by
  induction steps generalizing f with
  | nil => exact hf
  | cons step steps ih => exact ih (hf.turn (turn_perform f step))

/-- **A floor stays balanced**, whatever is done. -/
theorem balanced_run (s : WorkerSettings) (steps : List Step) : Balanced s ((of (.idle s)).run steps).1 :=
  (balanced_of_idle s).run steps

/-! ## Closed floors -/

/-- A job starts only on a floor whose workers are not closed. -/
theorem Turn.open_of_started {number : Nat} (hfair : f.pool.workers.Fair) (h : Turn f step f' notices)
    (hstarted : .started number ∈ notices) : f.pool.workers.closed = false := by
  cases h with
  | started t ht hopen => exact hopen
  | relieved t ht next rest hnext => exact (hfair (by simp [hnext])).2
  | shut | cleared => simp at hstarted
  | _ => simp at hstarted

theorem Turn.closed_workers (hclosed : f.pool.workers.closed = true) (h : Turn f step f' notices) :
    f'.pool.workers.closed = true := by
  cases h with
  | cleared => rfl
  | _ => exact hclosed

/-- No job gets a worker on a floor whose workers are closed. -/
theorem Turn.running_sublist (hfair : f.pool.workers.Fair) (hclosed : f.pool.workers.closed = true)
    (h : Turn f step f' notices) : f'.pool.running.Sublist f.pool.running := by
  cases h with
  | started t ht hopen => simp [hopen] at hclosed
  | relieved t ht next rest hnext =>
    -- A worker is passed on to one who waits, and nobody waits inside once the workers are closed.
    have hopen := (hfair (by simp [hnext])).2
    simp [hopen] at hclosed
  | finished t ht hnone => exact List.erase_sublist
  | _ => exact List.Sublist.refl _

/-- **After the workers are closed no job starts**, and those that run are of those that ran then. -/
theorem Balanced.run_closed (hf : Balanced s f) (hclosed : f.pool.workers.closed = true) (steps : List Step) :
    (∀ number, .started number ∉ (f.run steps).2) ∧ (f.run steps).1.pool.running.Sublist f.pool.running := by
  induction steps generalizing f with
  | nil => exact ⟨fun _ => List.not_mem_nil, .refl _⟩
  | cons step steps ih =>
    have hturn := turn_perform f step
    obtain ⟨hnone, hsublist⟩ := ih (hf.turn hturn) (hturn.closed_workers hclosed)
    refine ⟨fun number hstarted => ?_, hsublist.trans (hturn.running_sublist hf.fairWorkers hclosed)⟩
    rcases List.mem_append.mp hstarted with hnow | hlater
    · have hopen := hturn.open_of_started hf.fairWorkers hnow
      simp [hopen] at hclosed
    · exact hnone number hlater

/-! ## Saturated floors -/

/-- Only a job with a caller is refused because all places are taken, only by the policy to drop jobs, and only
while no admission is free and more could be given out. -/
theorem Turn.full_of_saturated {number : Nat} (h : Turn f step f' notices)
    (hsaturated : .refused number .saturated ∈ notices) :
    step = .ask number ∧ f.pool.overflow = .drop ∧ f.pool.admission.closed = false ∧
      f.pool.admission.free = 0 := by
  cases h with
  | saturated n hpolicy hopen hfull =>
    simp only [List.mem_singleton, PoolNotice.refused.injEq, and_true] at hsaturated
    exact ⟨by rw [hsaturated], hpolicy, hopen, hfull⟩
  | _ => simp at hsaturated

theorem ask_of_saturated {number : Nat} {steps : List Step}
    (h : .refused number .saturated ∈ (f.run steps).2) : .ask number ∈ steps := by
  induction steps generalizing f with
  | nil => exact absurd h List.not_mem_nil
  | cons step steps ih =>
    rcases List.mem_append.mp h with hnow | hlater
    · rw [((turn_perform f step).full_of_saturated hnow).1]
      exact List.mem_cons_self
    · exact List.mem_cons_of_mem _ (ih hlater)

theorem perform_ask_of_full (hpolicy : f.pool.overflow = .drop) (hopen : f.pool.admission.closed = false)
    (hfull : f.pool.admission.free = 0) (number : Nat) :
    f.perform (.ask number) = (f, [.refused number .saturated]) := by
  simp only [perform, WorkerPool.askAdmission_of_full hpolicy hopen hfull]

/-- No admission is free exactly if as many jobs are admitted as may be. -/
theorem Balanced.free_eq_zero_iff (hf : Balanced s f) :
    f.pool.admission.free = 0 ↔ f.admitted.length = s.capacity := by
  have := hf.admission
  omega

/-! ## The bounds -/

/-- What holds of a floor whose permits are all there. -/
structure Keeps (s : WorkerSettings) (f : Floor) : Prop where
  /-- At most as many jobs run as there are workers. -/
  running : f.pool.running.length ≤ s.workers.toNat
  /-- At most as many jobs are admitted as may be. -/
  admitted : f.admitted.length ≤ s.capacity
  /-- No more workers are free than there are, and the others are busy. -/
  busy : f.pool.workers.free ≤ f.pool.size.toNat ∧ f.pool.busy = f.pool.running.length
  /-- All permits are back when all jobs have come to their end. -/
  quiet : f.outstanding = [] →
    f.pool.busy = 0 ∧ f.pool.workers.free = s.workers.toNat ∧ f.pool.admission.free = s.capacity
  /-- By the policy to drop jobs, one with a caller is refused exactly if all places are taken. -/
  saturated : s.overflow = .drop → f.pool.admission.closed = false → ∀ number,
    (f.perform (.ask number)).2 = [.refused number .saturated] ↔ f.admitted.length = s.capacity
  /-- No other job is refused because of that, nor in a later step. -/
  unsaturated : ∀ step number, .refused number .saturated ∈ (f.perform step).2 → step = .ask number
  /-- After the workers are closed no job starts, and those that run are of those that run now. -/
  closed : f.pool.workers.closed = true → ∀ steps,
    (∀ number, .started number ∉ (f.run steps).2) ∧ (f.run steps).1.pool.running.Sublist f.pool.running

theorem Balanced.busy_eq (hf : Balanced s f) : f.pool.busy = f.pool.running.length := by
  rw [WorkerPool.busy, hf.size, ← hf.workers, Nat.add_sub_cancel_left]

theorem Balanced.quiet (hf : Balanced s f) (h : f.outstanding = []) :
    f.pool.busy = 0 ∧ f.pool.workers.free = s.workers.toNat ∧ f.pool.admission.free = s.capacity := by
  simp only [outstanding, List.append_eq_nil_iff] at h
  obtain ⟨⟨⟨⟨-, harriving⟩, hwaiting⟩, hrunning⟩, hleaving⟩ := h
  have hworkers := hf.workers
  have hadmission := hf.admission
  rw [length_admitted, harriving, hwaiting, hrunning, hleaving] at hadmission
  rw [hrunning] at hworkers
  refine ⟨?_, hworkers, hadmission⟩
  rw [hf.busy_eq, hrunning, List.length_nil]

theorem Balanced.keeps (hf : Balanced s f) : Keeps s f where
  running := hf.workers ▸ Nat.le_add_left ..
  admitted := hf.admission ▸ Nat.le_add_left ..
  busy := ⟨hf.size ▸ hf.workers ▸ Nat.le_add_right .., hf.busy_eq⟩
  quiet := hf.quiet
  saturated hpolicy hopen number := by
    rw [← hf.free_eq_zero_iff]
    constructor
    · intro h
      exact ((turn_perform f (.ask number)).full_of_saturated (h ▸ List.mem_singleton_self _)).2.2.2
    · intro hfull
      rw [perform_ask_of_full (hf.overflow.trans hpolicy) hopen hfull]
  unsaturated step number h := ((turn_perform f step).full_of_saturated h).1
  closed := hf.run_closed

end Floor

end Rendezvous
