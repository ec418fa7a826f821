import Mathlib.Data.List.Nodup
import Mathlib.Data.List.Range
import Rendezvous.Proofs.JobQueue.LevelOrder

/-!
# Every job runs once, and in its turn

Two jobs may have the same label and the same children, so a board does not tell them apart. A numbered
board does: it gives every job a number when it is dispatched, and carries the number along with the job
until the job is run. Without the numbers it is the board itself.

What was dispatched is then accounted for by numbers: a job either ran, or was taken out and still waits to
be run, or is in the queue, and the numbers below the next one are each found once in these three places.
Those that never left the queue but to be run are found in ascending order, since numbers enter the queue at
its end and leave it at its front.

* **`NumberedBoard.plain_runAll`** — a numbered board without its numbers is the board.
* **`NumberedBoard.Accounted.runAll`** — every number is in one place, in every reachable state.
* **`TaskBoard.tasks_run`** — running all tasks runs them in level order, and whatever is done with a board,
  every job runs at most once, those that were not taken out in the order in which they were dispatched.
-/

namespace Rendezvous

/-! ## Sequences of operations -/

namespace TaskBoard

/-- Something that is done with a board. -/
inductive Operation where
  | dispatch (t : Task)
  | runNext
  | runPending
  | take
  | runTaken (i : Nat)

/-- A board after an operation. -/
def perform (b : TaskBoard) : Operation → TaskBoard
  | .dispatch t => { b with queue := b.queue.dispatch t }
  | .runNext => b.runNext.2
  | .runPending => b.runPending.2
  | .take => b.take.2
  | .runTaken i => (b.runTaken i).2

/-- A board after some operations, in their order. -/
def runAll (b : TaskBoard) (operations : List Operation) : TaskBoard :=
  operations.foldl perform b

end TaskBoard

/-! ## Numbered jobs -/

/-- A task that was dispatched, and how many were dispatched before it. -/
structure NumberedTask where
  task : Task
  number : Nat

/-- A job that ran, and whether it had been taken out of the queue before. -/
structure TaskRun extends NumberedTask where
  wasTaken : Bool

/-- A board whose jobs are numbered in the order in which they are dispatched. -/
structure NumberedBoard where
  queue : JobQueue NumberedTask
  /-- What each taking found, unless it was run since. -/
  taken : List (Option NumberedTask)
  /-- The jobs that ran, in order. -/
  ran : List TaskRun
  /-- How many jobs were dispatched. -/
  dispatched : Nat

namespace NumberedBoard

def empty : NumberedBoard := ⟨.empty, [], [], 0⟩

/-- The board without the numbers. -/
def plain (b : NumberedBoard) : TaskBoard :=
  ⟨⟨b.queue.pending.map NumberedTask.task⟩, b.ran.map (·.task.label), b.taken.map (Option.map NumberedTask.task)⟩

/-- Puts tasks behind the others and gives them the next numbers. -/
def dispatchAll (b : NumberedBoard) (ts : List Task) : NumberedBoard :=
  { b with
    queue := b.queue.dispatchAll ((ts.zipIdx b.dispatched).map fun x => NumberedTask.mk x.1 x.2)
    dispatched := b.dispatched + ts.length }

def run (b : NumberedBoard) (j : NumberedTask) (wasTaken : Bool) : NumberedBoard :=
  { b with ran := b.ran ++ [TaskRun.mk j wasTaken] }.dispatchAll j.task.children

def runNext (b : NumberedBoard) : NumberedBoard :=
  match b.queue.takeNext with
  | none => b
  | some (j, rest) => { b with queue := rest }.run j false

def take (b : NumberedBoard) : NumberedBoard :=
  match b.queue.takeNext with
  | none => { b with taken := b.taken ++ [none] }
  | some (j, rest) => { b with queue := rest, taken := b.taken ++ [some j] }

def runTaken (b : NumberedBoard) (i : Nat) : NumberedBoard :=
  match b.taken[i]? with
  | some (some j) => { b with taken := b.taken.set i none }.run j true
  | _ => b

def perform (b : NumberedBoard) : TaskBoard.Operation → NumberedBoard
  | .dispatch t => b.dispatchAll [t]
  | .runNext => b.runNext
  | .runPending => runNext^[Task.countAll (b.queue.pending.map NumberedTask.task)] b
  | .take => b.take
  | .runTaken i => b.runTaken i

def runAll (b : NumberedBoard) (operations : List TaskBoard.Operation) : NumberedBoard :=
  operations.foldl perform b

/-- The numbered board after some operations on an empty one. -/
def after (operations : List TaskBoard.Operation) : NumberedBoard :=
  empty.runAll operations

variable {b : NumberedBoard}

/-! ### Without the numbers -/

theorem plain_dispatchAll (b : NumberedBoard) (ts : List Task) :
    (b.dispatchAll ts).plain = { b.plain with queue := b.plain.queue.dispatchAll ts } := by
  simp [plain, dispatchAll, JobQueue.dispatchAll, Function.comp_def]

theorem plain_run (b : NumberedBoard) (j : NumberedTask) (wasTaken : Bool) :
    (b.run j wasTaken).plain = b.plain.run j.task := by
  rw [run, plain_dispatchAll]
  simp [plain, TaskBoard.run]

theorem plain_runNext (b : NumberedBoard) : b.runNext.plain = b.plain.runNext.2 := by
  obtain ⟨⟨pending⟩, taken, ran, dispatched⟩ := b
  cases pending with
  | nil => rfl
  | cons j rest => exact plain_run _ j false

theorem plain_take (b : NumberedBoard) : b.take.plain = b.plain.take.2 := by
  obtain ⟨⟨pending⟩, taken, ran, dispatched⟩ := b
  cases pending with
  | nil => simp [take, plain, TaskBoard.take, JobQueue.takeNext]
  | cons j rest => simp [take, plain, TaskBoard.take, JobQueue.takeNext]

theorem plain_runTaken (b : NumberedBoard) (i : Nat) : (b.runTaken i).plain = (b.plain.runTaken i).2 := by
  have htaken : b.plain.taken[i]? = b.taken[i]?.map (Option.map NumberedTask.task) := List.getElem?_map ..
  unfold runTaken TaskBoard.runTaken
  rw [htaken]
  cases b.taken[i]? with
  | none => rfl
  | some found =>
    cases found with
    | none => rfl
    | some j =>
      show NumberedBoard.plain (run _ j true) = TaskBoard.run _ j.task
      rw [plain_run]
      simp [plain, List.map_set]

theorem plain_perform (b : NumberedBoard) (op : TaskBoard.Operation) :
    (b.perform op).plain = b.plain.perform op := by
  cases op with
  | dispatch t => exact plain_dispatchAll b [t]
  | runNext => exact b.plain_runNext
  | take => exact b.plain_take
  | runTaken i => exact b.plain_runTaken i
  | runPending =>
    show (runNext^[_] b).plain = b.plain.runPending.2
    rw [TaskBoard.runPending_eq_iterate]
    have hstep : Function.Semiconj plain runNext fun b => b.runNext.2 := plain_runNext
    exact hstep.iterate_right _ b

/-- **A numbered board without its numbers is the board**, whatever is done with it. -/
theorem plain_runAll (b : NumberedBoard) (operations : List TaskBoard.Operation) :
    (b.runAll operations).plain = b.plain.runAll operations := by
  induction operations generalizing b with
  | nil => rfl
  | cons op rest ih =>
    show ((b.perform op).runAll rest).plain = (b.plain.perform op).runAll rest
    rw [ih, plain_perform]

/-! ### What the numbers account for -/

/-- The numbers of the jobs that were taken out and not run since. -/
def held (b : NumberedBoard) : List Nat :=
  (b.taken.filterMap id).map NumberedTask.number

/-- The numbers of the jobs that ran without being taken out before, in the order in which they ran. -/
def straight (b : NumberedBoard) : List Nat :=
  (b.ran.filter fun r => !r.wasTaken).map (·.number)

/-- The numbers of the jobs in the queue, the oldest first. -/
def pending (b : NumberedBoard) : List Nat :=
  b.queue.pending.map NumberedTask.number

/-- The numbers of the jobs that ran, in the order in which they ran. -/
def finished (b : NumberedBoard) : List Nat :=
  b.ran.map (·.number)

/-- Every number that was given out is in one place, and the queue is in the order of the numbers. -/
structure Accounted (b : NumberedBoard) : Prop where
  once : (b.finished ++ b.held ++ b.pending).Perm (List.range b.dispatched)
  inTurn : (b.straight ++ b.pending).Pairwise (· < ·)

theorem mem_straight {n : Nat} (h : n ∈ b.straight) : n ∈ b.finished := by
  obtain ⟨r, hr, rfl⟩ := List.mem_map.mp h
  exact List.mem_map.mpr ⟨r, List.mem_of_mem_filter hr, rfl⟩

theorem accounted_empty : empty.Accounted :=
  ⟨.nil, .nil⟩

/-- The next numbers come behind all that were given out. -/
theorem Accounted.dispatchAll (h : b.Accounted) (ts : List Task) : (b.dispatchAll ts).Accounted := by
  have hpending : (b.dispatchAll ts).pending = b.pending ++ List.range' b.dispatched ts.length := by
    simp [pending, NumberedBoard.dispatchAll, Function.comp_def]
  constructor
  · rw [hpending, ← List.append_assoc]
    show (b.finished ++ b.held ++ b.pending ++ _).Perm (List.range (b.dispatched + ts.length))
    rw [List.range_add, ← List.range'_eq_map_range]
    exact h.once.append_right _
  · rw [hpending, ← List.append_assoc]
    show (b.straight ++ b.pending ++ _).Pairwise (· < ·)
    refine List.pairwise_append.mpr ⟨h.inTurn, List.pairwise_lt_range', fun m hm n hn => ?_⟩
    have hgiven : m ∈ b.finished ++ b.held ++ b.pending := by
      rcases List.mem_append.mp hm with hm | hm
      · exact List.mem_append_left _ (List.mem_append_left _ (mem_straight hm))
      · exact List.mem_append_right _ hm
    have hm := List.mem_range.mp (h.once.mem_iff.mp hgiven)
    have hn := (List.mem_range'_1.mp hn).1
    omega

/-- A number that was found behind others may as well be found in front of them. -/
theorem perm_moved (n : Nat) (before passed behind : List Nat) :
    (before ++ [n] ++ passed ++ behind).Perm (before ++ (passed ++ n :: behind)) := by
  have hfront : (n :: (passed ++ behind)).Perm (passed ++ n :: behind) := List.perm_middle.symm
  rw [List.append_assoc, List.append_assoc]
  exact hfront.append_left before

/-- A job in the queue is run. -/
theorem Accounted.runNext (h : b.Accounted) : b.runNext.Accounted := by
  obtain ⟨⟨pending⟩, taken, ran, dispatched⟩ := b
  cases pending with
  | nil => exact h
  | cons j rest =>
    refine Accounted.dispatchAll ⟨?_, ?_⟩ j.task.children
    · have honce := (perm_moved ..).trans (List.append_assoc .. ▸ h.once)
      simpa [finished, held, NumberedBoard.pending] using honce
    · simpa [straight, NumberedBoard.pending] using h.inTurn

/-- A job in the queue is taken out. -/
theorem Accounted.take (h : b.Accounted) : b.take.Accounted := by
  obtain ⟨⟨pending⟩, taken, ran, dispatched⟩ := b
  cases pending with
  | nil =>
    refine ⟨?_, h.inTurn⟩
    simpa [finished, held, NumberedBoard.pending, NumberedBoard.take, JobQueue.takeNext] using h.once
  | cons j rest =>
    constructor
    · simpa [finished, held, NumberedBoard.pending, NumberedBoard.take, JobQueue.takeNext] using h.once
    · -- The numbers in front and those behind keep their order without the one between them.
      refine h.inTurn.sublist ?_
      exact (List.sublist_cons_self ..).append_left _

/-- A job that was taken out is run. -/
theorem Accounted.runTaken (h : b.Accounted) (i : Nat) : (b.runTaken i).Accounted := by
  unfold NumberedBoard.runTaken
  split
  · next j htaken =>
    obtain ⟨⟨pending⟩, taken, ran, dispatched⟩ := b
    obtain ⟨hi, hget⟩ := List.getElem?_eq_some_iff.mp htaken
    have hsplit : taken = taken.take i ++ some j :: taken.drop (i + 1) := by
      rw [← hget, List.getElem_cons_drop, List.take_append_drop]
    have hset : taken.set i none = taken.take i ++ none :: taken.drop (i + 1) := by
      rw [List.set_eq_take_append_cons_drop, if_pos hi]
    refine Accounted.dispatchAll ⟨?_, ?_⟩ j.task.children
    · have honce := h.once
      simp only [finished, held, NumberedBoard.pending] at honce ⊢
      rw [hset]
      rw [hsplit] at honce
      have hmoved := (perm_moved ..).trans (by simpa using honce)
      simpa using hmoved
    · simpa [straight, NumberedBoard.pending] using h.inTurn
  · exact h

theorem Accounted.perform (h : b.Accounted) (op : TaskBoard.Operation) : (b.perform op).Accounted := by
  cases op with
  | dispatch t => exact h.dispatchAll [t]
  | runNext => exact h.runNext
  | take => exact h.take
  | runTaken i => exact h.runTaken i
  | runPending => exact Function.Iterate.rec Accounted h (fun _ h => h.runNext) _

/-- **Every number is in one place**, in every reachable state. -/
theorem Accounted.runAll (h : b.Accounted) (operations : List TaskBoard.Operation) :
    (b.runAll operations).Accounted := by
  induction operations generalizing b with
  | nil => exact h
  | cons op rest ih => exact ih (h.perform op)

end NumberedBoard

namespace TaskBoard

/-- **Every task runs once, and in its turn.** Running all tasks comes to an end: it runs those that wait and
all that follow from them, each once and in level order, tells how many these are, and leaves none in the
queue. Whatever else is done with a board, no job runs twice: each is either finished or held or still in the
queue. Those that ran without being taken out before ran in the order in which they were dispatched, and in
front of all that are still in the queue. -/
theorem tasks_run :
    (∀ b : TaskBoard,
      b.runPending = ((Task.nodesAll b.queue.pending).length,
        ⟨.empty, b.log ++ (Task.levelOrder b.queue.pending).map Task.label, b.taken⟩) ∧
      (Task.levelOrder b.queue.pending).Perm (Task.nodesAll b.queue.pending)) ∧
    ∀ operations : List Operation,
      (NumberedBoard.after operations).plain = empty.runAll operations ∧
      (NumberedBoard.after operations).finished.Nodup ∧
      ((NumberedBoard.after operations).finished ++ (NumberedBoard.after operations).held ++
        (NumberedBoard.after operations).pending).Perm
          (List.range (NumberedBoard.after operations).dispatched) ∧
      ((NumberedBoard.after operations).straight ++ (NumberedBoard.after operations).pending).Pairwise
        (· < ·) := by
  refine ⟨fun b => ⟨b.runPending_eq, Task.levelOrder_perm _⟩, fun operations => ?_⟩
  have haccounted := NumberedBoard.accounted_empty.runAll operations
  refine ⟨NumberedBoard.plain_runAll .., ?_, haccounted.once, haccounted.inTurn⟩
  have hnodup := haccounted.once.symm.nodup List.nodup_range
  exact (List.nodup_append.mp (List.nodup_append.mp hnodup).1).1

end TaskBoard

end Rendezvous
