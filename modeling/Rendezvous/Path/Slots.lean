import Rendezvous.Address

/-!
The addresses of a path and who has them. Responder addresses are handed out in a cycle: each new
responder gets the first free one after the last that was handed out.

Operations are described by what `get` says after them (`get_set_self`, `get_set_ne`).
-/

namespace Rendezvous

/-- All responder addresses are taken. -/
structure SlotsFull where
  deriving DecidableEq, Repr

def SlotsFull.message (_ : SlotsFull) : String :=
  "all responder slots are taken"

/-- Who has which address, and which responder address was handed out last. -/
structure Slots (α : Type u) where
  occupants : Vector (Option α) 256
  lastAllocated : Address

namespace Slots

variable {α : Type u}

/-- No address is taken; the first responder will get `0x02`. -/
def empty : Slots α := ⟨Vector.replicate 256 none, .initiator⟩

def get (s : Slots α) (a : Address) : Option α :=
  have _ : a.value.toNat < 256 := a.value.toNat_lt
  s.occupants[a.value.toNat]

/-- Gives an address to someone or to no one. -/
def set (s : Slots α) (a : Address) (occupant : Option α) : Slots α :=
  { s with occupants := s.occupants.set a.value.toNat occupant a.value.toNat_lt }

/-- The responder addresses in the order in which they are tried: those after the last one that was
handed out, then those up to it. -/
def rotation (last : Address) : List Address :=
  Address.responders.filter (fun a => last.value < a.value) ++
    Address.responders.filter (fun a => a.value ≤ last.value)

/-- Gives the next free responder address to someone. -/
def add (s : Slots α) (occupant : α) : Except SlotsFull (Address × Slots α) :=
  match (rotation s.lastAllocated).find? fun a => (s.get a).isNone with
  | some a => .ok (a, { s.set a (some occupant) with lastAllocated := a })
  | none => .error {}

def initiator (s : Slots α) : Option α := s.get .initiator

/-- Gives the initiator's address to someone, and tells who had it. -/
def setInitiator (s : Slots α) (occupant : α) : Option α × Slots α :=
  (s.initiator, s.set .initiator (some occupant))

/-- Frees an address, and tells who had it. -/
def del (s : Slots α) (a : Address) : Option α × Slots α :=
  (s.get a, s.set a none)

/-- Frees an address if who has it passes a test, and tells who had it. -/
def removeIf (s : Slots α) (a : Address) (test : α → Bool) : Option α × Slots α :=
  if (s.get a).any test then s.del a else (none, s)

/-- The responders with their addresses, in ascending order. -/
def responders (s : Slots α) : List (Address × α) :=
  Address.responders.filterMap fun a => (s.get a).map (a, ·)

/-- The addresses of the responders, in ascending order. -/
def responderIds (s : Slots α) : List Address :=
  s.responders.map Prod.fst

/-- The number of addresses that are taken. -/
def size (s : Slots α) : Nat :=
  s.occupants.toList.countP Option.isSome

def isEmpty (s : Slots α) : Bool :=
  s.occupants.toList.all Option.isNone

/-! ### What is at an address -/

@[simp] theorem get_empty (a : Address) : (empty : Slots α).get a = none := by
  simp [get, empty]

@[simp] theorem get_set_self (s : Slots α) (a : Address) (o : Option α) :
    (s.set a o).get a = o := by
  simp [get, set]

theorem get_set_ne (s : Slots α) {a b : Address} (o : Option α) (h : b ≠ a) :
    (s.set a o).get b = s.get b := by
  have hv : a.value.toNat ≠ b.value.toNat := by
    intro e
    apply h
    cases a; cases b
    simp_all [UInt8.toNat_inj]
  simp [get, set, hv]

theorem get_set (s : Slots α) (a b : Address) (o : Option α) :
    (s.set a o).get b = if b = a then o else s.get b := by
  split
  · next h => rw [h, get_set_self]
  · next h => exact get_set_ne s o h

theorem isEmpty_iff (s : Slots α) : s.isEmpty = true ↔ ∀ a, s.get a = none := by
  simp only [isEmpty, List.all_eq_true, Option.isNone_iff_eq_none, Vector.mem_toList_iff]
  constructor
  · intro h a
    exact h _ (Vector.getElem_mem _)
  · intro h o ho
    obtain ⟨i, hi, rfl⟩ := Vector.getElem_of_mem ho
    have := h ⟨UInt8.ofNat i⟩
    simpa [get, Nat.mod_eq_of_lt hi] using this

theorem mem_responders_iff (s : Slots α) (a : Address) (v : α) :
    (a, v) ∈ s.responders ↔ a.isResponder = true ∧ s.get a = some v := by
  simp only [responders, List.mem_filterMap, Option.map_eq_some_iff, Prod.mk.injEq,
    Address.mem_responders_iff]
  constructor
  · rintro ⟨b, hb, w, hw, rfl, rfl⟩
    exact ⟨hb, hw⟩
  · rintro ⟨ha, hv⟩
    exact ⟨a, ha, v, hv, rfl, rfl⟩

end Slots

end Rendezvous
