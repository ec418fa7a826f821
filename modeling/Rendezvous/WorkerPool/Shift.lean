import Rendezvous.WorkerPool.Basic

/-!
A shift: a pool, the jobs that were brought to it and what became of them. A job ends as soon as it
can, so that after each move only those jobs are running that wait to be released.
-/

namespace Rendezvous

/-- What a job does when it gets a worker. -/
inductive Work where
  /-- Gives a value at once. -/
  | value (n : Int)
  /-- Breaks off at once. -/
  | panic
  /-- Gives a value once it is released. -/
  | hold (n : Int)
  /-- Writes to the log at once, and gives nothing. -/
  | note (n : Int)
  deriving DecidableEq, Repr

/-- What the caller of a job gets, if there is a caller. -/
def Work.outcome? : Work → Option (Except PoolError Int)
  | .value n | .hold n => some (.ok n)
  | .panic => some (.error .panicked)
  | .note _ => none

/-- What a job writes to the log. -/
def Work.notes : Work → List Int
  | .note n => [n]
  | _ => []

/-- What a caller gets to know about a job. -/
inductive Progress where
  | ended (outcome : Except PoolError Int)
  | running
  | waiting

/-- A pool, its jobs by number, those of them that were released, what became of jobs, and the log. -/
structure Shift where
  pool : WorkerPool
  works : List Work
  released : List Nat
  outcomes : List (Nat × Except PoolError Int)
  log : List Int

namespace Shift

/-- A shift on which nothing happened, if there is a pool for it. -/
def ofSettings? (s : WorkerSettings) : Option Shift :=
  (WorkerPool.ofSettings? s).map fun pool => ⟨pool, [], [], [], []⟩

/-- Moves the pool on, and keeps what it refused. -/
def move (s : Shift) (m : PoolMove) : Shift :=
  let (pool, notices) := s.pool.step m
  let refused := notices.filterMap fun
    | .refused number reason => some (number, Except.error reason)
    | .started _ => none
  { s with pool, outcomes := s.outcomes ++ refused }

/-- Whether a job ends as soon as it has a worker. -/
def canEnd (s : Shift) (number : Nat) : Bool :=
  match s.works[number]? with
  | some (.hold _) => s.released.contains number
  | _ => true

/-- Does what a running job does, and ends it. -/
def complete (s : Shift) (number : Nat) : Shift :=
  let work := s.works[number]?
  let outcomes := (work.bind Work.outcome?).toList.map (number, ·)
  { s with
    outcomes := s.outcomes ++ outcomes
    log := s.log ++ (work.map Work.notes).getD [] }.move (.finish number)

/-- Ends running jobs, the longest running first, at most so many. -/
def settleWithin : Nat → Shift → Shift
  | 0, s => s
  | n + 1, s =>
    match s.pool.running.find? (s.canEnd ·.number) with
    | none => s
    | some t => settleWithin n (s.complete t.number)

/-- Ends all running jobs that can end. Each ends once. -/
def settle (s : Shift) : Shift :=
  settleWithin s.works.length s

/-- Brings a job to the pool, and gives its number. -/
def submit (s : Shift) (work : Work) : Nat × Shift :=
  let number := s.works.length
  (number, ({ s with works := s.works ++ [work] }.move (.execute number)).settle)

/-- Brings a deferred job to the pool. -/
def dispatch (s : Shift) (work : Work) : Shift :=
  let number := s.works.length
  ({ s with works := s.works ++ [work] }.move (.dispatch number)).settle

/-- Lets a job end that waits for it, now or when it gets a worker. -/
def release (s : Shift) (number : Nat) : Shift :=
  { s with released := number :: s.released }.settle

def close (s : Shift) : Shift :=
  (s.move .close).settle

def progress (s : Shift) (number : Nat) : Progress :=
  match s.outcomes.lookup number with
  | some outcome => .ended outcome
  | none => if s.pool.running.any (·.number == number) then .running else .waiting

end Shift

end Rendezvous
