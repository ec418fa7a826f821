import Mathlib.Data.List.Perm.Basic
import Mathlib.Logic.Function.Iterate
import Rendezvous.JobQueue.Task

/-!
# A board runs its tasks in level order

What is run puts the tasks that follow behind those that wait, so the tasks of a generation are run before
those of the next one, although nothing in the queue tells where a generation ends. The loop is followed
through queues of the form `ts ++ us`: the rest of a generation, and what its tasks dispatched so far.

* **`Task.nodes`** — a task and all that follow from it.
* **`Task.levelOrder`** — some tasks, then their children, and so on.
* **`Task.levelOrder_perm`** — that lists every task once.
* **`TaskBoard.runPending_eq`** — running all tasks runs them in level order.
-/

namespace Rendezvous

namespace Task

variable {ts us : List Task} {t : Task}

mutual

/-- A task and all that follow from it, each in front of its children. -/
def nodes : Task → List Task
  | mk n ts => mk n ts :: nodesAll ts

/-- Some tasks and all that follow from them. -/
def nodesAll : List Task → List Task
  | [] => []
  | t :: ts => t.nodes ++ nodesAll ts

end

theorem nodes_eq (t : Task) : t.nodes = t :: nodesAll t.children := by
  cases t
  rw [nodes, children]

theorem nodesAll_append (ts us : List Task) : nodesAll (ts ++ us) = nodesAll ts ++ nodesAll us := by
  induction ts with
  | nil => rfl
  | cons t ts ih => rw [List.cons_append, nodesAll, nodesAll, ih, List.append_assoc]

/-- What follows from some tasks are these and what follows from their children. -/
theorem countAll_eq (ts : List Task) : countAll ts = ts.length + countAll (ts.flatMap children) := by
  induction ts with
  | nil => rfl
  | cons t ts ih =>
    rw [countAll, count_eq, List.flatMap_cons, countAll_append, List.length_cons]
    omega

theorem nodesAll_perm (ts : List Task) : (nodesAll ts).Perm (ts ++ nodesAll (ts.flatMap children)) := by
  induction ts with
  | nil => exact .nil
  | cons t ts ih =>
    rw [nodesAll, nodes_eq, List.flatMap_cons, nodesAll_append, List.cons_append, List.cons_append]
    refine .cons t ?_
    -- The children of the first task change places with the other tasks.
    refine (ih.append_left _).trans ?_
    rw [← List.append_assoc, ← List.append_assoc]
    exact List.perm_append_comm.append_right _

/-- Some tasks, then their children in the order of their parents, then the children of these, and so on. -/
def levelOrder : List Task → List Task
  | [] => []
  | t :: ts => t :: ts ++ levelOrder ((t :: ts).flatMap children)
termination_by ts => countAll ts
decreasing_by
  have hcount := countAll_eq (t :: ts)
  rw [List.length_cons] at hcount
  omega

theorem levelOrder_eq (ts : List Task) : levelOrder ts = ts ++ levelOrder (ts.flatMap children) := by
  cases ts with
  | nil => simp [levelOrder]
  | cons t ts => rw [levelOrder]

/-- **Level order lists every task once.** Induction on the number of tasks, a generation at a time. -/
theorem levelOrder_perm (ts : List Task) : (levelOrder ts).Perm (nodesAll ts) := by
  induction ts using levelOrder.induct with
  | case1 => rw [levelOrder, nodesAll]
  | case2 t ts ih =>
    rw [levelOrder]
    exact (ih.append_left _).trans (nodesAll_perm _).symm

/-- There are as many tasks as the measure of the loop says. -/
theorem length_nodesAll (ts : List Task) : (nodesAll ts).length = countAll ts := by
  rw [← (levelOrder_perm ts).length_eq]
  induction ts using levelOrder.induct with
  | case1 => rw [levelOrder, countAll, List.length_nil]
  | case2 t ts ih => rw [levelOrder, List.length_append, ih, ← countAll_eq]

example : (levelOrder [mk 1 [mk 3 [mk 6 []], mk 4 []], mk 2 [mk 5 []]]).map label = [1, 2, 3, 4, 5, 6] := by
  cbv

end Task

namespace TaskBoard

variable {b : TaskBoard} {t : Task} {ts us rest : List Task}

/-- The oldest task is run. -/
theorem runNext_cons (h : b.queue.pending = t :: rest) :
    b.runNext = (true, { b with queue := ⟨rest⟩ }.run t) := by
  obtain ⟨⟨pending⟩, log, taken⟩ := b
  cases h
  rfl

/-- Running all tasks is running the oldest one and then all others. -/
theorem runPending_cons (h : b.queue.pending = t :: rest) :
    b.runPending = (b.runNext.2.runPending.1 + 1, b.runNext.2.runPending.2) := by
  rw [runNext_cons h]
  obtain ⟨⟨pending⟩, log, taken⟩ := b
  cases h
  rw [runPending]
  rfl

theorem runPending_nil (h : b.queue.pending = []) : b.runPending = (0, b) := by
  obtain ⟨⟨pending⟩, log, taken⟩ := b
  cases h
  rw [runPending]
  rfl

/-- A board whose tasks have run, with the labels that they logged. -/
def drained (b : TaskBoard) (ran : List Task) : TaskBoard :=
  ⟨.empty, b.log ++ ran.map Task.label, b.taken⟩

/-- The rest of a generation is run first, then what its tasks dispatched and what follows from it. Induction
on the number of tasks that are still to be run. -/
theorem runPending_of_append (h : b.queue.pending = ts ++ us) :
    b.runPending = (Task.countAll (ts ++ us),
      b.drained (ts ++ Task.levelOrder (us ++ ts.flatMap Task.children))) := by
  generalize hcount : Task.countAll (ts ++ us) = count
  induction count generalizing b ts us with
  | zero =>
    have hnil : ts ++ us = [] := by
      have hlength := Task.countAll_eq (ts ++ us)
      exact List.length_eq_zero_iff.mp (by omega)
    obtain ⟨rfl, rfl⟩ := List.append_eq_nil_iff.mp hnil
    obtain ⟨⟨pending⟩, log, taken⟩ := b
    cases h
    rw [runPending_nil rfl]
    simp [drained, Task.levelOrder, JobQueue.empty]
  | succ count ih =>
    -- The oldest task leaves its generation, and its children go behind those of the tasks before it.
    have hfirst : ∀ t ts us, b.queue.pending = t :: ts ++ us → Task.countAll (t :: ts ++ us) = count + 1 →
        b.runPending =
          (count + 1, b.drained (t :: ts ++ Task.levelOrder (us ++ (t :: ts).flatMap Task.children))) := by
      intro t ts us h hcount
      have hpending : b.runNext.2.queue.pending = ts ++ (us ++ t.children) := by
        rw [runNext_cons h, ← List.append_assoc]
        rfl
      have hrest : Task.countAll (ts ++ (us ++ t.children)) = count := by
        rw [List.cons_append, Task.countAll, Task.count_eq] at hcount
        rw [← List.append_assoc, Task.countAll_append]
        omega
      rw [runPending_cons h, ih hpending hrest, runNext_cons h]
      simp [drained, run]
    cases ts with
    | cons t ts => exact hfirst t ts us h hcount
    | nil =>
      cases us with
      | nil => cases hcount
      | cons u us =>
        -- A generation has come to its end, and the next one is complete.
        rw [hfirst u us [] (by simpa using h) (by simpa using hcount), List.flatMap_nil, List.append_nil,
          Task.levelOrder_eq (u :: us), List.nil_append, List.nil_append]

/-- **A board runs its tasks in level order**, and then nothing is left to be run. -/
theorem runPending_eq (b : TaskBoard) : b.runPending =
    ((Task.nodesAll b.queue.pending).length, b.drained (Task.levelOrder b.queue.pending)) := by
  have hpending : b.queue.pending = b.queue.pending ++ [] := (List.append_nil _).symm
  have h := b.runPending_of_append hpending
  rwa [List.append_nil, List.nil_append, ← Task.levelOrder_eq, ← Task.length_nodesAll] at h

/-- Running all tasks is running the oldest one again and again, until none is left. -/
theorem runPending_eq_iterate (b : TaskBoard) :
    b.runPending.2 = (fun b => b.runNext.2)^[Task.countAll b.queue.pending] b := by
  generalize hcount : Task.countAll b.queue.pending = count
  induction count generalizing b with
  | zero =>
    have hlength := Task.countAll_eq b.queue.pending
    rw [runPending_nil (List.length_eq_zero_iff.mp (by omega))]
    rfl
  | succ count ih =>
    cases h : b.queue.pending with
    | nil =>
      rw [h] at hcount
      cases hcount
    | cons t rest =>
      have hrest : Task.countAll b.runNext.2.queue.pending = count := by
        rw [h, Task.countAll, Task.count_eq] at hcount
        rw [runNext_cons h]
        show Task.countAll (rest ++ t.children) = count
        rw [Task.countAll_append]
        omega
      rw [runPending_cons h, Function.iterate_succ_apply]
      exact ih _ hrest

end TaskBoard

end Rendezvous
