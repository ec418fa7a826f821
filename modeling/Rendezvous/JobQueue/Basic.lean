/-!
A queue of deferred jobs. Jobs are run in the order in which they were dispatched, unless they are
taken out to be run at another time.
-/

namespace Rendezvous

/-- Jobs that were dispatched and not yet run, the oldest first. -/
structure JobQueue (α : Type u) where
  pending : List α

namespace JobQueue

variable {α : Type u}

def empty : JobQueue α := ⟨[]⟩

def dispatch (q : JobQueue α) (job : α) : JobQueue α :=
  ⟨q.pending ++ [job]⟩

/-- Adds jobs behind the others, in their order. -/
def dispatchAll (q : JobQueue α) (jobs : List α) : JobQueue α :=
  ⟨q.pending ++ jobs⟩

def takeNext : JobQueue α → Option (α × JobQueue α)
  | ⟨[]⟩ => none
  | ⟨job :: rest⟩ => some (job, ⟨rest⟩)

def size (q : JobQueue α) : Nat := q.pending.length

@[simp] theorem pending_dispatch (q : JobQueue α) (job : α) :
    (q.dispatch job).pending = q.pending ++ [job] := rfl

@[simp] theorem pending_dispatchAll (q : JobQueue α) (jobs : List α) :
    (q.dispatchAll jobs).pending = q.pending ++ jobs := rfl

end JobQueue

end Rendezvous
