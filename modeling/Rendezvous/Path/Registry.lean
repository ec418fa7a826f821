import Rendezvous.Path.Basic

/-!
The registry of paths. It finds the path that is registered under a key, creates it if there is
none, and takes it out once it is empty. A path that was taken out stays known to those who hold it,
but it is never handed out again.
-/

namespace Rendezvous

/-- The name of a path for those who hold it: its place among all paths ever held. -/
structure PathId where
  index : Nat
  deriving DecidableEq, Repr

/-- All paths ever held, and those among them that are registered under their keys. -/
structure Registry (α : Type u) where
  paths : Array (Path α)
  live : List (PublicKey × PathId)
  /-- How many paths the registry created. -/
  created : Nat

namespace Registry

variable {α : Type u}

def empty : Registry α := ⟨#[], [], 0⟩

def path? (r : Registry α) (id : PathId) : Option (Path α) :=
  r.paths[id.index]?

/-- Changes the path of the given name. -/
def modify (r : Registry α) (id : PathId) (f : Path α → Path α) : Registry α :=
  { r with paths := r.paths.modify id.index f }

/-- Changes the addresses of the path of the given name. -/
def setSlots (r : Registry α) (id : PathId) (slots : Slots α) : Registry α :=
  r.modify id fun p => { p with slots := slots }

/-- Holds a path without registering it. -/
def hold (r : Registry α) (p : Path α) : PathId × Registry α :=
  (⟨r.paths.size⟩, { r with paths := r.paths.push p })

/-- The path that is registered under a key, created if there is none. -/
def getOrCreate (r : Registry α) (key : PublicKey) : PathId × Registry α :=
  match r.live.lookup key with
  | some id => (id, r)
  | none =>
    let (id, r) := r.hold (.new key (r.created + 1))
    (id, { r with live := (key, id) :: r.live, created := r.created + 1 })

/-- The path that is registered under the key whose digits are given. -/
def find? (r : Registry α) (hex : String) : Option PathId :=
  (r.live.find? fun (key, _) => key.hex == hex).map Prod.snd

/-- Whether a path is registered and has no clients. -/
def isPrunable (r : Registry α) (id : PathId) : Bool :=
  match r.path? id with
  | some p => r.live.lookup p.key == some id && p.isEmpty
  | none => false

/-- Takes a path out if it is registered and has no clients, and tells whether it did. -/
def prune (r : Registry α) (id : PathId) : Bool × Registry α :=
  if r.isPrunable id then
    (true, { r.modify id fun p => { p with orphan := true } with
      live := r.live.filter fun (_, other) => other ≠ id })
  else (false, r)

def size (r : Registry α) : Nat := r.live.length

/-! ### The paths that are held -/

theorem path?_modify (r : Registry α) (id other : PathId) (f : Path α → Path α) :
    (r.modify id f).path? other =
      if id = other then (r.path? other).map f else r.path? other := by
  cases id; cases other
  simp [modify, path?, Array.getElem?_modify]

theorem path?_setSlots (r : Registry α) (id other : PathId) (slots : Slots α) :
    (r.setSlots id slots).path? other =
      if id = other then (r.path? other).map (fun p => { p with slots := slots })
      else r.path? other :=
  path?_modify ..

theorem path?_hold_self (r : Registry α) (p : Path α) : (r.hold p).2.path? (r.hold p).1 = some p := by
  simp [hold, path?]

theorem path?_hold {r : Registry α} {p : Path α} {id : PathId} (h : (r.path? id).isSome) :
    (r.hold p).2.path? id = r.path? id := by
  have hlt : id.index < r.paths.size := by
    simpa [path?] using h
  simp [hold, path?, Array.getElem?_push, Nat.ne_of_lt hlt]

end Registry

end Rendezvous
