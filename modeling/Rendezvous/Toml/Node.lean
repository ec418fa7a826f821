import Rendezvous.Toml.Moment
import Rendezvous.Toml.Number
import Std.Data.TreeMap.Raw.Basic

/-!
The values of a document, and how its lines build up its tables. A table may be written in pieces, but
each piece only in a place where it cannot contradict another. Main statement: a name is given a value
only if it has none (`isSome_define_iff`).
-/

namespace Rendezvous.Toml

/-- How a table came to be, which decides who may add to it. -/
inductive Origin where
  /-- Written in braces as a value, and finished there. -/
  | inline
  /-- Opened by a header of its own. -/
  | header
  /-- Passed through by the header of a table inside it. -/
  | implied
  /-- Passed through by the dotted key of a value inside it. -/
  | dotted
  deriving DecidableEq, Repr

/-- A value of a document. -/
inductive Node where
  | text (s : String)
  | integer (n : Int)
  | float (x : FloatLiteral)
  | boolean (b : Bool)
  | moment (m : Moment)
  | array (items : List Node)
  | table (origin : Origin) (entries : Std.TreeMap.Raw String Node)
  /-- An array of tables, each of which has a header of its own. The last of them comes first. -/
  | tables (elements : List (Std.TreeMap.Raw String Node))
  deriving Inhabited

/-- The contents of a table by name. -/
abbrev Entries := Std.TreeMap.Raw String Node

/-- A key, or the name of a table: a name, and the names of the tables that lead to it. -/
structure KeyPath where
  parents : List String
  name : String
  deriving DecidableEq, Repr

namespace KeyPath

def names (p : KeyPath) : List String :=
  p.parents ++ [p.name]

end KeyPath

namespace Entries

/-- Gives a value to a name that has none. -/
def define (name : String) (node : Node) (entries : Entries) : Option Entries :=
  match entries.get? name with
  | none => some (entries.insert name node)
  | some _ => none

/-- Changes the last table of an array of tables, which comes first. -/
def changeLast (change : Entries → Option Entries) : List Entries → Option (List Entries)
  | [] => none
  | last :: others => (change last).map (· :: others)

/-- Gives a value to a dotted key. The tables on the way are those of other dotted keys, or new; farther
out they may also be implied by a header, or the last of an array. -/
def assign (name : String) (node : Node) : List String → Entries → Option Entries
  | [], entries => entries.define name node
  | parent :: parents, entries =>
    match entries.get? parent with
    | none => (assign name node parents ∅).map fun e => entries.insert parent (.table .dotted e)
    | some (.table origin e) =>
      if origin = .dotted ∨ origin = .implied ∧ parents ≠ [] then
        (assign name node parents e).map fun e => entries.insert parent (.table origin e)
      else none
    | some (.tables es) =>
      if parents ≠ [] then
        (changeLast (assign name node parents) es).map fun es => entries.insert parent (.tables es)
      else none
    | some _ => none

/-- Changes the table to which the names of a header lead. Tables that are missing on the way are implied,
and of an array of tables the last is meant. -/
def descend (change : Entries → Option Entries) : List String → Entries → Option Entries
  | [], entries => change entries
  | name :: names, entries =>
    match entries.get? name with
    | none => (descend change names ∅).map fun e => entries.insert name (.table .implied e)
    | some (.table origin e) =>
      if origin = .inline then none
      else (descend change names e).map fun e => entries.insert name (.table origin e)
    | some (.tables es) =>
      (changeLast (descend change names) es).map fun es => entries.insert name (.tables es)
    | some _ => none

/-- Opens a table by a header: a new one, or one that was only implied so far. -/
def openTable (name : String) (entries : Entries) : Option Entries :=
  match entries.get? name with
  | none => some (entries.insert name (.table .header ∅))
  | some (.table .implied e) => some (entries.insert name (.table .header e))
  | some _ => none

/-- Opens the next table of an array of tables by a header. -/
def openElement (name : String) (entries : Entries) : Option Entries :=
  match entries.get? name with
  | none => some (entries.insert name (.tables [∅]))
  | some (.tables es) => some (entries.insert name (.tables (∅ :: es)))
  | some _ => none

/-- The table that is written in braces, from its keys and values. -/
def inline (pairs : List (KeyPath × Node)) : Option Entries :=
  pairs.foldlM (fun entries (key, node) => entries.assign key.name node key.parents) ∅

theorem isSome_define_iff {name : String} {node : Node} {entries : Entries} :
    (entries.define name node).isSome ↔ entries.get? name = none := by
  unfold define
  split <;> rename_i h <;> rw [h] <;> simp

end Entries

end Rendezvous.Toml
