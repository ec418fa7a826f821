import Rendezvous.WorkerPool.Basic

/-!
# The steps of a pool

A move of a pool takes several steps: a job asks for admission first and for a worker then, and gives both back
one after the other; a pool is closed to those outside first, and to those inside then. Others may take steps of
theirs in between. A floor is a pool between two steps, with the jobs that are on their way: those that are
admitted and have not asked for a worker yet, and those that have no worker any more and have not given their
admission back yet.

* **`Floor.perform`** — what a step makes of a floor, and what is told about jobs.
* **`Floor.Turn`** — the same as a list of cases, each in full; what is proved about steps is proved from these.
* **`Floor.turn_perform`** — every step is one of the cases.
-/

namespace Rendezvous

namespace Permits

variable {α : Type u}

/-- A permit is refused, waited for or granted. -/
theorem acquire_cases (p : Permits α) (a : α) :
    (p.closed = true ∧ p.acquire a = (.refused, p)) ∨
    (p.closed = false ∧ p.free = 0 ∧ p.acquire a = (.queued, { p with waiting := p.waiting ++ [a] })) ∨
    (p.closed = false ∧ 0 < p.free ∧ p.acquire a = (.granted, { p with free := p.free - 1 })) := by
  rcases Bool.eq_false_or_eq_true p.closed with hclosed | hopen
  · exact .inl ⟨hclosed, acquire_of_closed hclosed a⟩
  · rcases Nat.eq_zero_or_pos p.free with hfull | hfree
    · exact .inr (.inl ⟨hopen, hfull, acquire_of_full hopen hfull a⟩)
    · exact .inr (.inr ⟨hopen, hfree, acquire_of_free hopen hfree a⟩)

/-- A permit that is given back is free, or it goes to the first who waits. -/
theorem release_cases (p : Permits α) :
    (p.waiting = [] ∧ p.release = (none, { p with free := p.free + 1 })) ∨
    ∃ a rest, p.waiting = a :: rest ∧ p.release = (some a, { p with waiting := rest }) := by
  by_cases hnone : p.waiting = []
  · exact .inl ⟨hnone, release_of_nil hnone⟩
  · obtain ⟨a, rest, hnext⟩ := List.exists_cons_of_ne_nil hnone
    exact .inr ⟨a, rest, hnext, release_of_cons hnext⟩

end Permits

namespace WorkerPool

/-- A job that asks for admission is refused, waits or is admitted. -/
theorem askAdmission_cases (p : WorkerPool) (t : Ticket) :
    (p.overflow = .drop ∧ p.admission.closed = false ∧ p.admission.free = 0 ∧
      p.askAdmission t = (.refused, p, [.refused t.number .saturated])) ∨
    (p.admission.closed = true ∧ p.askAdmission t = (.refused, p, [.refused t.number .closed])) ∨
    (p.admission.closed = false ∧ p.admission.free = 0 ∧ p.askAdmission t =
      (.queued, { p with admission := { p.admission with waiting := p.admission.waiting ++ [t] } }, [])) ∨
    (p.admission.closed = false ∧ 0 < p.admission.free ∧ p.askAdmission t =
      (.granted, { p with admission := { p.admission with free := p.admission.free - 1 } }, [])) := by
  unfold askAdmission
  split
  · next h => exact .inl ⟨h.1, h.2.1, h.2.2, rfl⟩
  · rcases p.admission.acquire_cases t with ⟨hclosed, heq⟩ | ⟨hopen, hfull, heq⟩ | ⟨hopen, hfree, heq⟩
    · exact .inr (.inl ⟨hclosed, by rw [heq]⟩)
    · exact .inr (.inr (.inl ⟨hopen, hfull, by rw [heq]⟩))
    · exact .inr (.inr (.inr ⟨hopen, hfree, by rw [heq]⟩))

/-- By the policy to drop jobs none waits for its admission. -/
theorem askAdmission_of_full {p : WorkerPool} (hpolicy : p.overflow = .drop) (hopen : p.admission.closed = false)
    (hfull : p.admission.free = 0) (t : Ticket) :
    p.askAdmission t = (.refused, p, [.refused t.number .saturated]) :=
  if_pos ⟨hpolicy, hopen, hfull⟩

/-- A job that asks for a worker is refused, waits or starts. -/
theorem askWorker_cases (p : WorkerPool) (t : Ticket) :
    (p.workers.closed = true ∧ p.askWorker t = (.refused, p, [.refused t.number .closed])) ∨
    (p.workers.closed = false ∧ p.workers.free = 0 ∧ p.askWorker t =
      (.queued, { p with workers := { p.workers with waiting := p.workers.waiting ++ [t] } }, [])) ∨
    (p.workers.closed = false ∧ 0 < p.workers.free ∧ p.askWorker t =
      (.granted, { p with
        workers := { p.workers with free := p.workers.free - 1 }, running := p.running ++ [t] },
        [.started t.number])) := by
  unfold askWorker
  rcases p.workers.acquire_cases t with ⟨hclosed, heq⟩ | ⟨hopen, hfull, heq⟩ | ⟨hopen, hfree, heq⟩
  · exact .inl ⟨hclosed, by rw [heq]⟩
  · exact .inr (.inl ⟨hopen, hfull, by rw [heq]⟩)
  · exact .inr (.inr ⟨hopen, hfree, by rw [heq]⟩)

/-- A worker is free again, or the first job that waits inside starts. -/
theorem passWorker_cases (p : WorkerPool) :
    (p.workers.waiting = [] ∧
      p.passWorker = ({ p with workers := { p.workers with free := p.workers.free + 1 } }, [])) ∨
    ∃ t rest, p.workers.waiting = t :: rest ∧ p.passWorker =
      ({ p with workers := { p.workers with waiting := rest }, running := p.running ++ [t] },
        [.started t.number]) := by
  unfold passWorker
  rcases p.workers.release_cases with ⟨hnone, heq⟩ | ⟨t, rest, hnext, heq⟩
  · exact .inl ⟨hnone, by rw [heq]⟩
  · exact .inr ⟨t, rest, hnext, by rw [heq]⟩

/-- An admission is free again, or the first job that waits outside gets it. -/
theorem leave_cases (p : WorkerPool) (t : Ticket) :
    (t.deferred = true ∧ p.leave t = (none, p)) ∨
    (t.deferred = false ∧ p.admission.waiting = [] ∧ p.leave t =
      (none, { p with admission := { p.admission with free := p.admission.free + 1 } })) ∨
    ∃ next rest, t.deferred = false ∧ p.admission.waiting = next :: rest ∧ p.leave t =
      (some next, { p with admission := { p.admission with waiting := rest } }) := by
  unfold leave
  cases t.deferred with
  | true => exact .inl ⟨rfl, rfl⟩
  | false =>
    rcases p.admission.release_cases with ⟨hnone, heq⟩ | ⟨next, rest, hnext, heq⟩
    · exact .inr (.inl ⟨rfl, hnone, by simp [heq]⟩)
    · exact .inr (.inr ⟨next, rest, rfl, hnext, by simp [heq]⟩)

end WorkerPool

/-- A pool between two steps. -/
structure Floor where
  pool : WorkerPool
  /-- The jobs that are admitted, or need no admission, and have not asked for a worker yet. -/
  arriving : List Ticket
  /-- The jobs that have no worker any more, or got none, and have not given their admission back yet. -/
  leaving : List Ticket
  deriving DecidableEq

namespace Floor

/-- The floor of a pool on which no job is on its way. -/
def of (p : WorkerPool) : Floor := ⟨p, [], []⟩

/-- Something that is done on a floor at once. -/
inductive Step where
  /-- The caller of a job asks for admission. -/
  | ask (number : Nat)
  /-- A deferred job is brought. -/
  | bring (number : Nat)
  /-- A job that arrived asks for a worker. -/
  | enter (t : Ticket)
  /-- A running job gives a value or breaks off, and its worker goes to the next. -/
  | finish (t : Ticket)
  /-- A job that is done gives its admission back. -/
  | leave (t : Ticket)
  /-- No more jobs are admitted. -/
  | closeAdmission
  /-- No more jobs get a worker. That is done only after no more are admitted. -/
  | closeWorkers
  deriving DecidableEq

/-- What a step makes of a floor, and what is told about jobs. -/
def perform (f : Floor) : Step → Floor × List PoolNotice
  | .ask number =>
    match f.pool.askAdmission ⟨number, false⟩ with
    | (.granted, pool, notices) => ({ f with pool, arriving := f.arriving ++ [⟨number, false⟩] }, notices)
    | (_, pool, notices) => ({ f with pool }, notices)
  | .bring number => ({ f with arriving := f.arriving ++ [⟨number, true⟩] }, [])
  | .enter t =>
    if t ∈ f.arriving then
      match f.pool.askWorker t with
      | (.refused, pool, notices) => (⟨pool, f.arriving.erase t, f.leaving ++ [t]⟩, notices)
      | (_, pool, notices) => (⟨pool, f.arriving.erase t, f.leaving⟩, notices)
    else (f, [])
  | .finish t =>
    if t ∈ f.pool.running then
      let (pool, notices) := { f.pool with running := f.pool.running.erase t }.passWorker
      ({ f with pool, leaving := f.leaving ++ [t] }, notices)
    else (f, [])
  | .leave t =>
    if t ∈ f.leaving then
      let (next, pool) := f.pool.leave t
      (⟨pool, f.arriving ++ next.toList, f.leaving.erase t⟩, [])
    else (f, [])
  | .closeAdmission =>
    let (outside, admission) := f.pool.admission.close
    ({ f with pool := { f.pool with admission } }, outside.map fun t => .refused t.number .closed)
  | .closeWorkers =>
    if f.pool.admission.closed then
      let (inside, workers) := f.pool.workers.close
      ({ f with pool := { f.pool with workers }, leaving := f.leaving ++ inside },
        inside.map fun t => .refused t.number .closed)
    else (f, [])

/-- What some steps make of a floor, and what is told about jobs. -/
def run (f : Floor) : List Step → Floor × List PoolNotice
  | [] => (f, [])
  | step :: rest =>
    (((f.perform step).1.run rest).1, (f.perform step).2 ++ ((f.perform step).1.run rest).2)

theorem run_append (f : Floor) (steps rest : List Step) :
    f.run (steps ++ rest) = (((f.run steps).1.run rest).1, (f.run steps).2 ++ ((f.run steps).1.run rest).2) := by
  induction steps generalizing f with
  | nil => rfl
  | cons step steps ih => rw [List.cons_append, run, run, ih, List.append_assoc]

/-- The jobs that hold an admission. -/
def admitted (f : Floor) : List Ticket :=
  (f.arriving ++ f.pool.workers.waiting ++ f.pool.running ++ f.leaving).filter fun t => !t.deferred

/-- All jobs that have not come to their end. -/
def outstanding (f : Floor) : List Ticket :=
  f.pool.admission.waiting ++ f.arriving ++ f.pool.workers.waiting ++ f.pool.running ++ f.leaving

/-! ## What a step can do -/

/-- What a step can do to a floor. -/
inductive Turn (f : Floor) : Step → Floor → List PoolNotice → Prop where
  /-- A step of a job that is elsewhere, or one that comes too early. -/
  | nothing (step : Step) : Turn f step f []
  | saturated (number : Nat) (hpolicy : f.pool.overflow = .drop) (hopen : f.pool.admission.closed = false)
      (hfull : f.pool.admission.free = 0) : Turn f (.ask number) f [.refused number .saturated]
  | unadmitted (number : Nat) (hclosed : f.pool.admission.closed = true) :
      Turn f (.ask number) f [.refused number .closed]
  | waitsOutside (number : Nat) (hopen : f.pool.admission.closed = false) (hfull : f.pool.admission.free = 0) :
      Turn f (.ask number)
        { f with pool := { f.pool with
          admission := { f.pool.admission with waiting := f.pool.admission.waiting ++ [⟨number, false⟩] } } } []
  | admitted (number : Nat) (hopen : f.pool.admission.closed = false) (hfree : 0 < f.pool.admission.free) :
      Turn f (.ask number)
        { f with
          pool := { f.pool with admission := { f.pool.admission with free := f.pool.admission.free - 1 } }
          arriving := f.arriving ++ [⟨number, false⟩] } []
  | brought (number : Nat) :
      Turn f (.bring number) { f with arriving := f.arriving ++ [⟨number, true⟩] } []
  | turnedAway (t : Ticket) (ht : t ∈ f.arriving) (hclosed : f.pool.workers.closed = true) :
      Turn f (.enter t) { f with arriving := f.arriving.erase t, leaving := f.leaving ++ [t] }
        [.refused t.number .closed]
  | waitsInside (t : Ticket) (ht : t ∈ f.arriving) (hopen : f.pool.workers.closed = false)
      (hfull : f.pool.workers.free = 0) :
      Turn f (.enter t)
        { f with
          pool := { f.pool with workers := { f.pool.workers with waiting := f.pool.workers.waiting ++ [t] } }
          arriving := f.arriving.erase t } []
  | started (t : Ticket) (ht : t ∈ f.arriving) (hopen : f.pool.workers.closed = false)
      (hfree : 0 < f.pool.workers.free) :
      Turn f (.enter t)
        { f with
          pool := { f.pool with
            workers := { f.pool.workers with free := f.pool.workers.free - 1 }
            running := f.pool.running ++ [t] }
          arriving := f.arriving.erase t } [.started t.number]
  | finished (t : Ticket) (ht : t ∈ f.pool.running) (hnone : f.pool.workers.waiting = []) :
      Turn f (.finish t)
        { f with
          pool := { f.pool with
            workers := { f.pool.workers with free := f.pool.workers.free + 1 }
            running := f.pool.running.erase t }
          leaving := f.leaving ++ [t] } []
  | relieved (t : Ticket) (ht : t ∈ f.pool.running) (next : Ticket) (rest : List Ticket)
      (hnext : f.pool.workers.waiting = next :: rest) :
      Turn f (.finish t)
        { f with
          pool := { f.pool with
            workers := { f.pool.workers with waiting := rest }
            running := f.pool.running.erase t ++ [next] }
          leaving := f.leaving ++ [t] } [.started next.number]
  | leftDeferred (t : Ticket) (ht : t ∈ f.leaving) (hdeferred : t.deferred = true) :
      Turn f (.leave t) { f with leaving := f.leaving.erase t } []
  | left (t : Ticket) (ht : t ∈ f.leaving) (hcaller : t.deferred = false) (hnone : f.pool.admission.waiting = []) :
      Turn f (.leave t)
        { f with
          pool := { f.pool with admission := { f.pool.admission with free := f.pool.admission.free + 1 } }
          leaving := f.leaving.erase t } []
  | letIn (t : Ticket) (ht : t ∈ f.leaving) (hcaller : t.deferred = false) (next : Ticket) (rest : List Ticket)
      (hnext : f.pool.admission.waiting = next :: rest) :
      Turn f (.leave t)
        { f with
          pool := { f.pool with admission := { f.pool.admission with waiting := rest } }
          arriving := f.arriving ++ [next]
          leaving := f.leaving.erase t } []
  | shut :
      Turn f .closeAdmission
        { f with pool := { f.pool with
          admission := { f.pool.admission with waiting := [], closed := true } } }
        (f.pool.admission.waiting.map fun t => .refused t.number .closed)
  | cleared (hshut : f.pool.admission.closed = true) :
      Turn f .closeWorkers
        { f with
          pool := { f.pool with workers := { f.pool.workers with waiting := [], closed := true } }
          leaving := f.leaving ++ f.pool.workers.waiting }
        (f.pool.workers.waiting.map fun t => .refused t.number .closed)

variable {f : Floor}

/-- Every step is one of the cases. -/
theorem turn_perform (f : Floor) (step : Step) : Turn f step (f.perform step).1 (f.perform step).2 := by
  cases step with
  | ask number =>
    simp only [perform]
    rcases f.pool.askAdmission_cases ⟨number, false⟩ with
      ⟨hpolicy, hopen, hfull, heq⟩ | ⟨hclosed, heq⟩ | ⟨hopen, hfull, heq⟩ | ⟨hopen, hfree, heq⟩
    · simpa only [heq] using .saturated number hpolicy hopen hfull
    · simpa only [heq] using .unadmitted number hclosed
    · simpa only [heq] using .waitsOutside number hopen hfull
    · simpa only [heq] using .admitted number hopen hfree
  | bring number => exact .brought number
  | enter t =>
    simp only [perform]
    split
    · next ht =>
      rcases f.pool.askWorker_cases t with ⟨hclosed, heq⟩ | ⟨hopen, hfull, heq⟩ | ⟨hopen, hfree, heq⟩
      · simpa only [heq] using .turnedAway t ht hclosed
      · simpa only [heq] using .waitsInside t ht hopen hfull
      · simpa only [heq] using .started t ht hopen hfree
    · exact .nothing _
  | finish t =>
    simp only [perform]
    split
    · next ht =>
      rcases { f.pool with running := f.pool.running.erase t }.passWorker_cases with
        ⟨hnone, heq⟩ | ⟨next, rest, hnext, heq⟩
      · simpa only [heq] using .finished t ht hnone
      · simpa only [heq] using .relieved t ht next rest hnext
    · exact .nothing _
  | leave t =>
    simp only [perform]
    split
    · next ht =>
      rcases f.pool.leave_cases t with ⟨hdeferred, heq⟩ | ⟨hcaller, hnone, heq⟩ | ⟨next, rest, hcaller, hnext, heq⟩
      · simpa [heq] using .leftDeferred t ht hdeferred
      · simpa [heq] using .left t ht hcaller hnone
      · simpa [heq] using .letIn t ht hcaller next rest hnext
    · exact .nothing _
  | closeAdmission => exact .shut
  | closeWorkers =>
    simp only [perform]
    split
    · next hshut => exact .cleared hshut
    · exact .nothing _

end Floor

end Rendezvous
