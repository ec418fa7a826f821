import Rendezvous.CloseCode
import Rendezvous.Bytes.Octets

/-!
What is to be sent on a connection. Items wait for the connection's writer, which takes them in
order; once the writer is gone nothing is taken in any more.
-/

namespace Rendezvous

/-- Something for the writer of a connection to do. -/
inductive Outbound where
  /-- Send a frame. -/
  | binary (frame : Bytes)
  /-- Send a close frame and stop. -/
  | close (code : CloseCode)
  /-- Ping from now on, every so many seconds. -/
  | keepAlive (seconds : Nat)
  deriving DecidableEq

/-- The items that wait for a writer, the oldest first. -/
structure Outbox where
  items : List Outbound
  /-- Whether there still is a writer. -/
  isOpen : Bool
  deriving DecidableEq

namespace Outbox

def empty : Outbox := ⟨[], true⟩

/-- Adds an item, if there is a writer. -/
def push (o : Outbox) (item : Outbound) : Outbox :=
  if o.isOpen then { o with items := o.items ++ [item] } else o

def pop (o : Outbox) : Option Outbound × Outbox :=
  match o.items with
  | [] => (none, o)
  | item :: items => (some item, { o with items })

def drain (o : Outbox) : List Outbound × Outbox :=
  (o.items, { o with items := [] })

/-- The outbox without its writer, and so without what waited for it. -/
def dropWriter (_ : Outbox) : Outbox := ⟨[], false⟩

theorem items_push (o : Outbox) (item : Outbound) (h : o.isOpen = true) :
    (o.push item).items = o.items ++ [item] := by
  simp [push, h]

@[simp] theorem isOpen_push (o : Outbox) (item : Outbound) : (o.push item).isOpen = o.isOpen := by
  unfold push
  split <;> rfl

end Outbox

end Rendezvous
