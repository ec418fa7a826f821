/-!
Byte strings, and byte strings of a fixed size.

`Octets.ofList?` accepts exactly the byte strings of the right size (`ofList?_eq_some_iff`), and
`Octets.fit` is the identity on them (`fit_toList`).
-/

namespace Rendezvous

/-- A byte string. -/
abbrev Bytes := List UInt8

/-- A byte string of exactly `size` bytes. -/
structure Octets (size : Nat) where
  toList : Bytes
  length_toList : toList.length = size
  deriving DecidableEq

namespace Octets

variable {m n : Nat}

/-- The given bytes, if there are `n` of them. -/
def ofList? (bytes : Bytes) : Option (Octets n) :=
  if h : bytes.length = n then some ⟨bytes, h⟩ else none

/-- The first `n` bytes, with zero bytes after them if there are fewer. -/
def fit (bytes : Bytes) : Octets n :=
  ⟨(bytes ++ List.replicate n 0).take n, by simp⟩

def append (a : Octets m) (b : Octets n) : Octets (m + n) :=
  ⟨a.toList ++ b.toList, by simp [a.length_toList, b.length_toList]⟩

def take (k : Nat) (a : Octets n) (h : k ≤ n := by decide) : Octets k :=
  ⟨a.toList.take k, by simp [a.length_toList, h]⟩

def drop (k : Nat) (a : Octets n) : Octets (n - k) :=
  ⟨a.toList.drop k, by simp [a.length_toList]⟩

instance : Inhabited (Octets n) := ⟨fit []⟩

theorem ext_toList {a b : Octets n} (h : a.toList = b.toList) : a = b := by
  cases a; cases b; simp_all

theorem toList_inj {a b : Octets n} : a.toList = b.toList ↔ a = b :=
  ⟨ext_toList, fun h => h ▸ rfl⟩

theorem ofList?_toList (a : Octets n) : ofList? a.toList = some a := by
  simp [ofList?, a.length_toList]

theorem ofList?_eq_some_iff {bytes : Bytes} {a : Octets n} :
    ofList? bytes = some a ↔ bytes = a.toList := by
  constructor
  · intro h
    unfold ofList? at h
    split at h
    · exact (Option.some.inj h) ▸ rfl
    · contradiction
  · rintro rfl
    exact ofList?_toList a

theorem isSome_ofList? {bytes : Bytes} :
    (ofList? (n := n) bytes).isSome ↔ bytes.length = n := by
  unfold ofList?
  split <;> simp_all

theorem fit_toList (a : Octets n) : fit a.toList = a := by
  apply ext_toList
  simp [fit, a.length_toList]

theorem take_append_drop (k : Nat) (a : Octets n) (h : k ≤ n) :
    (a.take k h).toList ++ (a.drop k).toList = a.toList :=
  List.take_append_drop k a.toList

end Octets

end Rendezvous
