import Rendezvous.Proofs.WorkerPool.Conservation
import Rendezvous.WorkerPool.Shift

/-!
# Runs of a pool

A move of a pool is some steps on its floor, one after the other, after which no job is on its way any more. So
whatever was proved of the floors that a pool can come to holds of the pools that moves lead to, and these
are the pools of shifts. The converse does not hold: between the steps of one move there may be steps of others.

* **`WorkerPool.steps`**, **`WorkerPool.run_steps`** — the steps of a move, and that they are what the move does.
* **`WorkerPool.permits_conserved`** — the bounds, for all that can be done with a pool, step by step, move by
  move, and by the jobs of a shift, of which some break off.
-/

namespace Rendezvous

namespace WorkerPool

variable {s : WorkerSettings} {p : WorkerPool}

/-- What some moves make of a pool, and what the pool tells about jobs. -/
def run (p : WorkerPool) : List PoolMove → WorkerPool × List PoolNotice
  | [] => (p, [])
  | move :: rest => (((p.step move).1.run rest).1, (p.step move).2 ++ ((p.step move).1.run rest).2)

theorem run_append (p : WorkerPool) (moves rest : List PoolMove) :
    p.run (moves ++ rest) = (((p.run moves).1.run rest).1, (p.run moves).2 ++ ((p.run moves).1.run rest).2) := by
  induction moves generalizing p with
  | nil => rfl
  | cons move moves ih => rw [List.cons_append, run, run, ih, List.append_assoc]

/-! ## The steps of a move -/

/-- The steps of a job from its arrival on. The last is for a job that gets no worker. -/
def stepsInside (t : Ticket) : List Floor.Step :=
  [.enter t, .leave t]

/-- The steps of a move. -/
def steps (p : WorkerPool) : PoolMove → List Floor.Step
  | .execute number => .ask number :: stepsInside ⟨number, false⟩
  | .dispatch number => .bring number :: stepsInside ⟨number, true⟩
  | .finish number =>
    match p.running.find? (·.number == number) with
    | none => []
    | some t =>
      .finish t :: .leave t :: (if t.deferred then [] else p.admission.waiting.take 1).flatMap stepsInside
  | .close => .closeAdmission :: .closeWorkers :: p.workers.waiting.map .leave

/-- Nobody waits for the admission to a pool whose workers are closed. -/
def Orderly (p : WorkerPool) : Prop :=
  p.workers.closed = true → p.admission.waiting = []

/-- Nobody takes the steps inside if no job is on its way. -/
theorem run_stepsInside_nobody (p : WorkerPool) (t : Ticket) :
    Floor.run ⟨p, [], []⟩ (stepsInside t) = (⟨p, [], []⟩, []) := by
  simp [stepsInside, Floor.run, Floor.perform]

/-- A job that arrived, and is alone on its way, goes in or leaves. -/
theorem run_stepsInside (hclosed : Orderly p) (t : Ticket) :
    Floor.run ⟨p, [t], []⟩ (stepsInside t) = (.of (p.enter t).1, (p.enter t).2) := by
  rcases p.askWorker_cases t with ⟨hshut, heq⟩ | ⟨hopen, hfull, heq⟩ | ⟨hopen, hfree, heq⟩
  · -- Its admission goes back in the same move, and there is nobody to whom it could be given.
    have hnone := hclosed hshut
    cases hd : t.deferred <;>
      simp [stepsInside, Floor.run, Floor.perform, Floor.of, enter, heq, leave, hd, Permits.release, hnone]
  · simp [stepsInside, Floor.run, Floor.perform, Floor.of, enter, heq]
  · simp [stepsInside, Floor.run, Floor.perform, Floor.of, enter, heq]

theorem run_steps_execute (hclosed : Orderly p) (number : Nat) :
    (Floor.of p).run (p.steps (.execute number)) = (.of (p.execute number).1, (p.execute number).2) := by
  rw [steps, Floor.run, Floor.perform, execute]
  rcases p.askAdmission_cases ⟨number, false⟩ with
    ⟨-, -, -, heq⟩ | ⟨-, heq⟩ | ⟨-, -, heq⟩ | ⟨hopen, hfree, heq⟩
  · simp only [Floor.of, heq, run_stepsInside_nobody, List.append_nil]
  · simp only [Floor.of, heq, run_stepsInside_nobody, List.append_nil]
  · simp only [Floor.of, heq, run_stepsInside_nobody, List.append_nil]
  · simp only [Floor.of, heq, List.nil_append]
    let entered : WorkerPool := { p with admission := { p.admission with free := p.admission.free - 1 } }
    exact run_stepsInside (show Orderly entered from hclosed) _

theorem run_steps_dispatch (hclosed : Orderly p) (number : Nat) :
    (Floor.of p).run (p.steps (.dispatch number)) = (.of (p.dispatch number).1, (p.dispatch number).2) := by
  rw [steps, Floor.run, Floor.perform, dispatch]
  simp only [Floor.of, List.nil_append]
  exact run_stepsInside hclosed _

theorem passWorker_admission (p : WorkerPool) : p.passWorker.1.admission = p.admission := by
  rcases p.passWorker_cases with ⟨-, heq⟩ | ⟨t, rest, -, heq⟩ <;> rw [heq]

theorem passWorker_closed (p : WorkerPool) : p.passWorker.1.workers.closed = p.workers.closed := by
  rcases p.passWorker_cases with ⟨-, heq⟩ | ⟨t, rest, -, heq⟩ <;> rw [heq]

/-- A job that leaves, and is alone on its way, may let another one in. -/
theorem run_leave (hclosed : Orderly p) (t : Ticket) :
    Floor.run ⟨p, [], [t]⟩
      (.leave t :: (if t.deferred then [] else p.admission.waiting.take 1).flatMap stepsInside) =
      (.of (p.passAdmission t).1, (p.passAdmission t).2) := by
  rw [Floor.run, Floor.perform, passAdmission]
  rcases p.leave_cases t with ⟨hdeferred, heq⟩ | ⟨hcaller, hnone, heq⟩ | ⟨next, rest, hcaller, hnext, heq⟩
  · simp [hdeferred, heq, Floor.run, Floor.of]
  · simp [hcaller, hnone, heq, Floor.run, Floor.of]
  · -- Somebody waits, so the workers are open, and the one who is let in is not turned away.
    have hopen : p.workers.closed ≠ true := fun h => by simp [hclosed h] at hnext
    let entered : WorkerPool := { p with admission := { p.admission with waiting := rest } }
    simp only [hcaller, hnext, heq, List.mem_singleton, if_true, Bool.false_eq_true, if_false, List.take_succ_cons,
      List.take_zero, List.flatMap_singleton, Option.toList_some, List.nil_append, List.erase_cons_head]
    exact run_stepsInside (show Orderly entered from fun h => absurd h hopen) next

theorem run_steps_finish (hclosed : Orderly p) (number : Nat) :
    (Floor.of p).run (p.steps (.finish number)) = (.of (p.finish number).1, (p.finish number).2) := by
  cases hfind : p.running.find? (·.number == number) with
  | none => simp only [steps, finish, hfind]; rfl
  | some t =>
    have ht := List.mem_of_find?_eq_some hfind
    let next := { p with running := p.running.erase t }.passWorker
    have hfinish : (Floor.of p).perform (.finish t) = (⟨next.1, [], [t]⟩, next.2) := by
      simp [Floor.perform, Floor.of, ht, next]
    have hwaiting : next.1.admission.waiting = p.admission.waiting := by rw [passWorker_admission]
    have hsteps : p.steps (.finish number) = .finish t :: .leave t ::
        (if t.deferred then [] else next.1.admission.waiting.take 1).flatMap stepsInside := by
      simp only [steps, hfind, hwaiting]
    have hnext : Orderly next.1 := by
      rw [Orderly, passWorker_closed, hwaiting]
      exact hclosed
    rw [hsteps, Floor.run, hfinish, run_leave hnext]
    simp only [finish, hfind]
    rfl

/-- Those that leave a closed pool let nobody in. -/
theorem run_leave_all (ts : List Ticket) (hnone : p.admission.waiting = []) :
    Floor.run ⟨p, [], ts⟩ (ts.map .leave) = (.of (ts.foldl (fun p t => (p.leave t).2) p), []) := by
  induction ts generalizing p with
  | nil => rfl
  | cons t ts ih =>
    have hleave : (p.leave t).1 = none ∧ (p.leave t).2.admission.waiting = [] := by
      rcases p.leave_cases t with ⟨-, heq⟩ | ⟨-, -, heq⟩ | ⟨next, rest, -, hnext, heq⟩
      · exact ⟨by rw [heq], by rw [heq, hnone]⟩
      · exact ⟨by rw [heq], by rw [heq, hnone]⟩
      · simp [hnone] at hnext
    have hperform : Floor.perform ⟨p, [], t :: ts⟩ (.leave t) = (⟨(p.leave t).2, [], ts⟩, []) := by
      simp [Floor.perform, hleave.1]
    rw [List.map_cons, Floor.run, hperform, ih hleave.2]
    rfl

theorem run_steps_close (p : WorkerPool) :
    (Floor.of p).run (p.steps .close) = (.of p.close.1, p.close.2) := by
  let shut : WorkerPool := { p with admission := p.admission.close.2, workers := p.workers.close.2 }
  have hclosed : (Floor.of p).run [.closeAdmission, .closeWorkers] =
      (⟨shut, [], p.workers.waiting⟩,
        (p.admission.waiting ++ p.workers.waiting).map fun t => .refused t.number .closed) := by
    simp [Floor.run, Floor.perform, Floor.of, Permits.close, shut]
  have hsteps : p.steps .close = [.closeAdmission, .closeWorkers] ++ p.workers.waiting.map .leave := rfl
  rw [hsteps, Floor.run_append, hclosed, run_leave_all p.workers.waiting rfl, List.append_nil]
  rfl

/-- **The steps of a move are what the move does.** -/
theorem run_steps (hclosed : Orderly p) (move : PoolMove) :
    (Floor.of p).run (p.steps move) = (.of (p.step move).1, (p.step move).2) := by
  cases move with
  | execute number => exact run_steps_execute hclosed number
  | dispatch number => exact run_steps_dispatch hclosed number
  | finish number => exact run_steps_finish hclosed number
  | close => exact run_steps_close p

theorem orderly_of_balanced (hp : Floor.Balanced s (.of p)) : Orderly p := by
  intro hclosed
  have hshut : p.admission.closed = true := hp.order hclosed
  refine Decidable.byContradiction fun hwaiting => ?_
  have hopen : p.admission.closed = false := (hp.fairAdmission hwaiting).2
  simp [hopen] at hshut

theorem balanced_step (hp : Floor.Balanced s (.of p)) (move : PoolMove) :
    Floor.Balanced s (.of (p.step move).1) := by
  have hrun := hp.run (p.steps move)
  rwa [run_steps (orderly_of_balanced hp)] at hrun

/-- Some moves are some steps. -/
theorem exists_steps (hp : Floor.Balanced s (.of p)) (moves : List PoolMove) :
    ∃ steps, (Floor.of p).run steps = (.of (p.run moves).1, (p.run moves).2) := by
  induction moves generalizing p with
  | nil => exact ⟨[], rfl⟩
  | cons move moves ih =>
    obtain ⟨steps, hsteps⟩ := ih (balanced_step hp move)
    refine ⟨p.steps move ++ steps, ?_⟩
    rw [Floor.run_append, run_steps (orderly_of_balanced hp), hsteps]
    rfl

theorem balanced_run (hp : Floor.Balanced s (.of p)) (moves : List PoolMove) :
    Floor.Balanced s (.of (p.run moves).1) := by
  obtain ⟨steps, hsteps⟩ := exists_steps hp moves
  have hrun := hp.run steps
  rwa [hsteps] at hrun

/-! ## The bounds, move by move -/

/-- What holds of a pool whose permits are all there. -/
structure Keeps (s : WorkerSettings) (p : WorkerPool) : Prop where
  floor : Floor.Keeps s (.of p)
  /-- By the policy to drop jobs, one with a caller is refused exactly if all places are taken. -/
  saturated : s.overflow = .drop → p.isClosed = false → ∀ number,
    (p.execute number).2 = [.refused number .saturated] ↔ (Floor.of p).admitted.length = s.capacity
  /-- No other job is refused because of that, nor by a later move. -/
  unsaturated : ∀ move number, .refused number .saturated ∈ (p.step move).2 → move = .execute number
  /-- After a pool is closed no job starts, and those that run are of those that run now. -/
  closed : ∀ moves, (∀ number, .started number ∉ ((p.step .close).1.run moves).2) ∧
    ((p.step .close).1.run moves).1.running.Sublist p.running

/-- Only a job with a caller asks for admission. -/
theorem execute_of_ask {move : PoolMove} {number : Nat} (h : .ask number ∈ p.steps move) :
    move = .execute number := by
  cases move with
  | execute n => simpa [steps, stepsInside, eq_comm] using h
  | dispatch n => simp [steps, stepsInside] at h
  | finish n =>
    simp only [steps] at h
    split at h
    · simp at h
    · simp [stepsInside] at h
  | close => simp [steps] at h

theorem execute_of_full (hpolicy : p.overflow = .drop) (hopen : p.isClosed = false)
    (hfull : p.admission.free = 0) (number : Nat) : p.execute number = (p, [.refused number .saturated]) := by
  simp only [execute, askAdmission_of_full hpolicy hopen hfull]

theorem leave_workers (p : WorkerPool) (t : Ticket) :
    (p.leave t).2.workers = p.workers ∧ (p.leave t).2.running = p.running := by
  rcases p.leave_cases t with ⟨-, heq⟩ | ⟨-, -, heq⟩ | ⟨next, rest, -, -, heq⟩ <;> rw [heq] <;> exact ⟨rfl, rfl⟩

theorem leave_all_workers (ts : List Ticket) (p : WorkerPool) :
    (ts.foldl (fun p t => (p.leave t).2) p).workers = p.workers ∧
      (ts.foldl (fun p t => (p.leave t).2) p).running = p.running := by
  induction ts generalizing p with
  | nil => exact ⟨rfl, rfl⟩
  | cons t ts ih =>
    rw [List.foldl_cons, (ih _).1, (ih _).2]
    exact p.leave_workers t

theorem close_workers (p : WorkerPool) : p.close.1.workers.closed = true ∧ p.close.1.running = p.running := by
  let shut : WorkerPool := { p with admission := p.admission.close.2, workers := p.workers.close.2 }
  have hleft : p.close.1 = p.workers.waiting.foldl (fun p t => (p.leave t).2) shut := rfl
  obtain ⟨hworkers, hrunning⟩ := leave_all_workers p.workers.waiting shut
  rw [hleft, hworkers, hrunning]
  exact ⟨rfl, rfl⟩

theorem full_of_execute (hp : Floor.Balanced s (.of p)) {number : Nat}
    (h : (p.execute number).2 = [.refused number .saturated]) : p.admission.free = 0 := by
  have hrefused : .refused number .saturated ∈ ((Floor.of p).run (p.steps (.execute number))).2 := by
    rw [run_steps (orderly_of_balanced hp)]
    exact h ▸ List.mem_singleton_self _
  rcases List.mem_append.mp hrefused with hask | hinside
  · exact ((Floor.turn_perform _ _).full_of_saturated hask).2.2.2
  · have hnone := Floor.ask_of_saturated hinside
    simp [stepsInside] at hnone

theorem keeps_of_balanced (hp : Floor.Balanced s (.of p)) : Keeps s p where
  floor := hp.keeps
  saturated hpolicy hopen number := by
    rw [← hp.free_eq_zero_iff]
    constructor
    · exact full_of_execute hp
    · intro hfull
      rw [execute_of_full (p := p) (hp.overflow.trans hpolicy) hopen hfull]
  unsaturated move number h := by
    have hrun := run_steps (orderly_of_balanced hp) move
    rw [← congrArg Prod.snd hrun] at h
    exact execute_of_ask (Floor.ask_of_saturated h)
  closed moves := by
    obtain ⟨steps, hsteps⟩ := exists_steps (balanced_step hp .close) moves
    have hnone := (balanced_step hp .close).run_closed (close_workers p).1 steps
    rw [hsteps] at hnone
    exact ⟨hnone.1, (close_workers p).2 ▸ hnone.2⟩

end WorkerPool

/-! ## Shifts -/

/-- Something that is done on a shift. -/
inductive ShiftOperation where
  | submit (work : Work)
  | dispatch (work : Work)
  | release (number : Nat)
  | close
  deriving DecidableEq

namespace Shift

def perform (s : Shift) : ShiftOperation → Shift
  | .submit work => (s.submit work).2
  | .dispatch work => s.dispatch work
  | .release number => s.release number
  | .close => s.close

def run (s : Shift) (operations : List ShiftOperation) : Shift :=
  operations.foldl perform s

/-- Moves of the pool lead from one shift to another. -/
def Leads (s s' : Shift) : Prop :=
  ∃ moves, s'.pool = (s.pool.run moves).1

variable {s s' s'' : Shift}

theorem Leads.of_pool (h : s'.pool = s.pool) : Leads s s' :=
  ⟨[], h⟩

theorem Leads.trans (h : Leads s s') (h' : Leads s' s'') : Leads s s'' := by
  obtain ⟨moves, hmoves⟩ := h
  obtain ⟨rest, hrest⟩ := h'
  exact ⟨moves ++ rest, by rw [WorkerPool.run_append, hrest, hmoves]⟩

theorem leads_move (s : Shift) (move : PoolMove) : Leads s (s.move move) :=
  ⟨[move], rfl⟩

theorem leads_settleWithin (n : Nat) (s : Shift) : Leads s (settleWithin n s) := by
  induction n generalizing s with
  | zero => exact .of_pool rfl
  | succ n ih =>
    rw [settleWithin]
    split
    · exact .of_pool rfl
    · next t hfind => exact Leads.trans ⟨[.finish t.number], rfl⟩ (ih (s.complete t.number))

theorem leads_perform (s : Shift) (operation : ShiftOperation) : Leads s (s.perform operation) := by
  cases operation with
  | submit work => exact Leads.trans ⟨[.execute s.works.length], rfl⟩ (leads_settleWithin _ _)
  | dispatch work => exact Leads.trans ⟨[.dispatch s.works.length], rfl⟩ (leads_settleWithin _ _)
  | release number => exact Leads.trans (.of_pool rfl) (leads_settleWithin _ _)
  | close => exact Leads.trans (leads_move s .close) (leads_settleWithin _ _)

/-- What is done on a shift are moves of its pool, whatever the jobs do. -/
theorem leads_run (s : Shift) (operations : List ShiftOperation) : Leads s (s.run operations) := by
  induction operations generalizing s with
  | nil => exact .of_pool rfl
  | cons operation operations ih => exact (leads_perform s operation).trans (ih _)

end Shift

/-! ## The bounds -/

namespace WorkerPool

variable {s : WorkerSettings} {p : WorkerPool}

/-- **No permit is lost.** The bounds hold for every pool, whatever steps are taken on its floor and in whatever
order, and so for whatever moves the pool makes, since a move does what its steps do; and the moves are all that a
shift does with a pool, also when jobs break off. -/
theorem permits_conserved (h : ofSettings? s = some p) :
    p.size = s.workers ∧ (s.size ≠ 0 → p.size = s.size) ∧
    (∀ steps, Floor.Keeps s ((Floor.of p).run steps).1) ∧
    (∀ moves, Keeps s (p.run moves).1 ∧
      (∃ steps, (Floor.of p).run steps = (.of (p.run moves).1, (p.run moves).2)) ∧
      ∀ move, (Floor.of (p.run moves).1).run ((p.run moves).1.steps move) =
        (.of ((p.run moves).1.step move).1, ((p.run moves).1.step move).2)) ∧
    ∀ shift, Shift.ofSettings? s = some shift → ∀ operations, ∃ moves,
      (shift.run operations).pool = (p.run moves).1 := by
  obtain ⟨-, rfl⟩ := ofSettings?_eq_some_iff.mp h
  have hp := Floor.balanced_of_idle s
  refine ⟨rfl, WorkerSettings.workers_eq, fun steps => (Floor.balanced_run s steps).keeps, fun moves => ?_, ?_⟩
  · have hmoved := balanced_run hp moves
    exact ⟨keeps_of_balanced hmoved, exists_steps hp moves, run_steps (orderly_of_balanced hmoved)⟩
  · intro shift hshift operations
    rw [Shift.ofSettings?, h] at hshift
    cases hshift
    exact Shift.leads_run _ operations

/-- One worker, and nobody may wait. A second job is refused while the first one runs, and also when the first one
has no worker any more but has not given its admission back yet; once it has, everything is back. -/
theorem permits_conserved_single :
    let s : WorkerSettings := { size := 1, queueCapacity := 0, overflow := .drop }
    let busy := ((idle s).run [.execute 0]).1
    let between := ((Floor.of (idle s)).run [.ask 0, .enter ⟨0, false⟩, .finish ⟨0, false⟩]).1
    let quiet := ((idle s).run [.execute 0, .execute 1, .finish 0]).1
    ofSettings? s = some (idle s) ∧ (idle s).size = 1 ∧
      busy.busy = 1 ∧ (busy.execute 1).2 = [.refused 1 .saturated] ∧
      (Floor.of busy).run [.finish ⟨0, false⟩, .leave ⟨0, false⟩] =
        (.of (busy.finish 0).1, (busy.finish 0).2) ∧
      between.pool.busy = 0 ∧ (between.perform (.ask 2)).2 = [.refused 2 .saturated] ∧
      quiet.busy = 0 ∧ quiet.admission.free = 1 := by
  intro s busy between quiet
  have h : ofSettings? s = some (idle s) := by decide
  obtain ⟨-, hsize, hsteps, hmoves, -⟩ := permits_conserved h
  have hbusy := hmoves [.execute 0]
  have hbetween := hsteps [.ask 0, .enter ⟨0, false⟩, .finish ⟨0, false⟩]
  have hquiet := (hmoves [.execute 0, .execute 1, .finish 0]).1.floor.quiet (by decide)
  exact ⟨h, hsize (by decide), hbusy.1.floor.busy.2, (hbusy.1.saturated rfl rfl 1).mpr (by decide),
    hbusy.2.2 (.finish 0), hbetween.busy.2, (hbetween.saturated rfl rfl 2).mpr (by decide), hquiet.1, hquiet.2.2⟩

end WorkerPool

end Rendezvous
