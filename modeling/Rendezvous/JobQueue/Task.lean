import Rendezvous.JobQueue.Basic

/-!
Tasks: jobs that write their label to a log and then dispatch the jobs that follow from them. A
board holds the queue, the log, and the tasks that were taken out of the queue.
-/

namespace Rendezvous

/-- A job with a label, and the jobs that it dispatches when it is run. -/
inductive Task where
  | mk (label : Nat) (children : List Task)
  deriving Inhabited

namespace Task

/-- What the task writes to the log. -/
def label : Task → Nat
  | mk n _ => n

def children : Task → List Task
  | mk _ ts => ts

mutual

/-- The number of tasks that follow from a task, itself included. -/
def count : Task → Nat
  | mk _ ts => countAll ts + 1

/-- The number of tasks that follow from some tasks. -/
def countAll : List Task → Nat
  | [] => 0
  | t :: ts => t.count + countAll ts

end

theorem countAll_append (s t : List Task) : countAll (s ++ t) = countAll s + countAll t := by
  induction s with
  | nil => simp [countAll]
  | cons x s ih => simp [countAll, ih]; omega

theorem count_eq (t : Task) : t.count = countAll t.children + 1 := by
  cases t
  simp [count, children]

end Task

/-- A queue of tasks, what they logged, and the tasks taken out to be run later. -/
structure TaskBoard where
  queue : JobQueue Task
  log : List Nat
  /-- What each taking found, and whether it was run since. -/
  taken : List (Option Task)

namespace TaskBoard

def empty : TaskBoard := ⟨.empty, [], []⟩

/-- Runs one task: logs its label and dispatches what follows from it. -/
def run (b : TaskBoard) (t : Task) : TaskBoard :=
  { b with queue := b.queue.dispatchAll t.children, log := b.log ++ [t.label] }

/-- Runs the oldest task, and tells whether there was one. -/
def runNext (b : TaskBoard) : Bool × TaskBoard :=
  match b.queue.takeNext with
  | none => (false, b)
  | some (t, rest) => (true, { b with queue := rest }.run t)

/-- Runs tasks, the ones they dispatch included, until none is left, and tells how many ran. -/
def runPending (b : TaskBoard) : Nat × TaskBoard :=
  match _h : b.queue.takeNext with
  | none => (0, b)
  | some (t, rest) =>
    let (n, b) := ({ b with queue := rest }.run t).runPending
    (n + 1, b)
termination_by Task.countAll b.queue.pending
decreasing_by
  obtain ⟨⟨pending⟩, log, taken⟩ := b
  cases pending with
  | nil => simp [JobQueue.takeNext] at _h
  | cons x xs =>
    simp only [JobQueue.takeNext, Option.some.injEq, Prod.mk.injEq] at _h
    obtain ⟨rfl, rfl⟩ := _h
    simp only [run, JobQueue.pending_dispatchAll, Task.countAll_append, Task.countAll,
      Task.count_eq x]
    omega

/-- Takes the oldest task out without running it, and tells whether there was one. -/
def take (b : TaskBoard) : Bool × TaskBoard :=
  match b.queue.takeNext with
  | none => (false, { b with taken := b.taken ++ [none] })
  | some (t, rest) => (true, { b with queue := rest, taken := b.taken ++ [some t] })

/-- Runs the task of an earlier taking, unless there was none or it ran before. -/
def runTaken (b : TaskBoard) (i : Nat) : Bool × TaskBoard :=
  match b.taken[i]? with
  | some (some t) => (true, { b with taken := b.taken.set i none }.run t)
  | _ => (false, b)

end TaskBoard

end Rendezvous
