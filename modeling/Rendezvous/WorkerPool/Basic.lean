import Rendezvous.Configuration.Basic
import Rendezvous.WorkerPool.Permits
import Rendezvous.Text.Quoted

/-!
The worker pool. A job whose caller waits for the result takes two permits: it is admitted first, and
gets a worker then. A deferred job takes a worker only. A pool is moved on by the arrival of a job, by
the end of one, and by being closed; each move tells which jobs started and which were refused.
-/

namespace Rendezvous

/-- Why a job was not run to its end. -/
inductive PoolError where
  /-- All places are taken, and the policy is not to wait. -/
  | saturated
  /-- The pool was closed before the job got a worker. -/
  | closed
  /-- The job broke off. -/
  | panicked
  deriving DecidableEq, Repr

def PoolError.message : PoolError → String
  | .saturated => "worker pool saturated"
  | .closed => "worker pool closed"
  | .panicked => "job panicked"

/-- A job that was brought to the pool. -/
structure Ticket where
  number : Nat
  /-- Nobody waits for the result, and no admission was asked for. -/
  deferred : Bool
  deriving DecidableEq, Repr

/-- What the pool tells about a job. -/
inductive PoolNotice where
  | started (number : Nat)
  | refused (number : Nat) (reason : PoolError)
  deriving DecidableEq, Repr

/-- A pool, the permits for admission and for workers, and the jobs that have a worker, the longest
running first. -/
structure WorkerPool where
  size : UInt64
  overflow : Overflow
  admission : Permits Ticket
  workers : Permits Ticket
  running : List Ticket
  deriving DecidableEq, Repr

/-- What moves a pool on. -/
inductive PoolMove where
  /-- A job arrives, and its caller waits for the result. -/
  | execute (number : Nat)
  /-- A deferred job arrives. -/
  | dispatch (number : Nat)
  /-- A running job ends, in whatever way. -/
  | finish (number : Nat)
  /-- The pool is closed. -/
  | close
  deriving DecidableEq, Repr

namespace WorkerPool

/-- The sum of two numbers of 64 bits, or the largest such number if there is none. -/
def saturatingSum (a b : UInt64) : Nat :=
  min (a.toNat + b.toNat) (UInt64.size - 1)

/-- A pool with its permits, which has one worker at least. There is none with more permits than a stock
can have. -/
def ofSettings? (s : WorkerSettings) : Option WorkerPool := do
  let size := if s.size = 0 then 1 else s.size
  let workers ← Permits.ofCount? size.toNat
  let admission ← Permits.ofCount? (saturatingSum size s.queueCapacity)
  return { size, overflow := s.overflow, admission, workers, running := [] }

def busy (p : WorkerPool) : Nat :=
  p.size.toNat - p.workers.free

def isClosed (p : WorkerPool) : Bool :=
  p.admission.closed

/-- Gives the admission of a job back, if it had one, and tells who is admitted in its place. -/
def leave (p : WorkerPool) (t : Ticket) : Option Ticket × WorkerPool :=
  if t.deferred then (none, p)
  else
    let (next, admission) := p.admission.release
    (next, { p with admission })

/-- A job asks to be admitted. It waits if it must, or is refused; by the policy it may be refused in place
of waiting. -/
def askAdmission (p : WorkerPool) (t : Ticket) : Grant × WorkerPool × List PoolNotice :=
  if p.overflow = .drop ∧ p.admission.closed = false ∧ p.admission.free = 0 then
    (.refused, p, [.refused t.number .saturated])
  else
    match p.admission.acquire t with
    | (.granted, admission) => (.granted, { p with admission }, [])
    | (.queued, admission) => (.queued, { p with admission }, [])
    | (.refused, admission) => (.refused, { p with admission }, [.refused t.number .closed])

/-- A job asks for a worker, and starts as soon as it has one. -/
def askWorker (p : WorkerPool) (t : Ticket) : Grant × WorkerPool × List PoolNotice :=
  match p.workers.acquire t with
  | (.granted, workers) =>
    (.granted, { p with workers, running := p.running ++ [t] }, [.started t.number])
  | (.queued, workers) => (.queued, { p with workers }, [])
  | (.refused, workers) => (.refused, { p with workers }, [.refused t.number .closed])

/-- A job that was admitted asks for a worker. If it is refused one its admission goes back too. -/
def enter (p : WorkerPool) (t : Ticket) : WorkerPool × List PoolNotice :=
  match p.askWorker t with
  | (.refused, p, notices) => ((p.leave t).2, notices)
  | (_, p, notices) => (p, notices)

/-- A job arrives whose caller waits for the result. -/
def execute (p : WorkerPool) (number : Nat) : WorkerPool × List PoolNotice :=
  let t : Ticket := ⟨number, false⟩
  match p.askAdmission t with
  | (.granted, p, _) => p.enter t
  | (_, p, notices) => (p, notices)

def dispatch (p : WorkerPool) (number : Nat) : WorkerPool × List PoolNotice :=
  p.enter ⟨number, true⟩

/-- The worker of a job that ended goes to the next who waits for one. -/
def passWorker (p : WorkerPool) : WorkerPool × List PoolNotice :=
  match p.workers.release with
  | (some t, workers) => ({ p with workers, running := p.running ++ [t] }, [.started t.number])
  | (none, workers) => ({ p with workers }, [])

/-- The admission of a job that ended goes to the next who waits for one. -/
def passAdmission (p : WorkerPool) (t : Ticket) : WorkerPool × List PoolNotice :=
  match p.leave t with
  | (some next, p) => p.enter next
  | (none, p) => (p, [])

/-- A running job ends, and gives back what it took. -/
def finish (p : WorkerPool) (number : Nat) : WorkerPool × List PoolNotice :=
  match p.running.find? (·.number == number) with
  | none => (p, [])
  | some t =>
    let (p, first) := { p with running := p.running.erase t }.passWorker
    let (p, second) := p.passAdmission t
    (p, first ++ second)

/-- Closes the pool. Running jobs go on, and all that wait are refused; those of them that were admitted
give their admission back. -/
def close (p : WorkerPool) : WorkerPool × List PoolNotice :=
  let (outside, admission) := p.admission.close
  let (inside, workers) := p.workers.close
  let p := inside.foldl (fun p t => (p.leave t).2) { p with admission, workers }
  (p, (outside ++ inside).map fun t => .refused t.number .closed)

/-- What a move makes of the pool, and what the pool tells about jobs. -/
def step (p : WorkerPool) : PoolMove → WorkerPool × List PoolNotice
  | .execute number => p.execute number
  | .dispatch number => p.dispatch number
  | .finish number => p.finish number
  | .close => p.close

/-- The pool as it is shown in descriptions. -/
def describe (p : WorkerPool) : String :=
  Text.record "WorkerPool" [("size", toString p.size), ("busy", toString p.busy),
    ("overflow", p.overflow.describe)]

end WorkerPool

end Rendezvous
