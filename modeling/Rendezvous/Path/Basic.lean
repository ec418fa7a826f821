import Rendezvous.Box.Keys
import Rendezvous.Path.Slots

/-!
Paths: the meeting points of an initiator and its responders.
-/

namespace Rendezvous

/-- A meeting point. `α` stands for the clients on it. -/
structure Path (α : Type u) where
  /-- The initiator's key, after which the path is named. -/
  key : PublicKey
  /-- The place of the path among all that were created. -/
  number : Nat
  slots : Slots α
  /-- Whether the path was taken out of the registry. -/
  orphan : Bool

namespace Path

variable {α : Type u}

def new (key : PublicKey) (number : Nat) : Path α := ⟨key, number, .empty, false⟩

/-- Whether no client is on the path. -/
def isEmpty (p : Path α) : Bool := p.slots.isEmpty

/-- The path as it is shown in descriptions, with the start of its key. -/
def describe (p : Path α) : String :=
  Text.record "Path" [("number", toString p.number),
    ("key", Text.quoted (Hex.encode (p.key.bytes.take 4))),
    ("clients", toString p.slots.size), ("orphan", toString p.orphan)]

end Path

end Rendezvous
