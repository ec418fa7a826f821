import Rendezvous.MessagePack.Reader
import Rendezvous.MessagePack.Writer

/-!
Records: values with named fields in a known order. A record is written as a map with its names. It
is read from a map, whose keys are names or positions and where unknown ones are passed over, or
from an array of its first fields.
-/

namespace Rendezvous.MessagePack

def Value.ofText (s : String) : Value :=
  .str (Text.utf8 s)

/-- The fields that were read, each with its name. -/
abbrev Record := List (String × Value)

namespace Record

/-- The field that a key names: by its name, or by its position as an unsigned number. A key of
another kind is not accepted, and one that names no field gives `some none`. -/
def fieldOf? (names : List String) : Value → Option (Option String)
  | .str bytes => some (names.find? fun name => Text.utf8 name == bytes)
  | .bin bytes => some (names.find? fun name => Text.utf8 name == bytes)
  | .unsigned n => some names[n]?
  | _ => none

/-- The named fields among the entries of a map, if all keys are acceptable. -/
def named? (names : List String) : List (Value × Value) → Option Record
  | [] => some []
  | (key, value) :: entries => do
    let name ← fieldOf? names key
    let record ← named? names entries
    return match name with
      | some name => (name, value) :: record
      | none => record

/-- The fields of a record with the given names. No field may come twice. -/
def ofValue? (names : List String) : Value → Option Record
  | .map entries => do
    let record ← named? names entries
    guard (record.map Prod.fst).Nodup
    return record
  | .array items => if items.length ≤ names.length then some (names.zip items) else none
  | _ => none

/-- Reads a record from the start of a byte string. -/
def read? (names : List String) (bytes : Bytes) : Option Record :=
  (MessagePack.read? bytes).bind (ofValue? names)

/-- A field that has to be there. -/
def required? (r : Record) (name : String) (convert : Value → Option α) : Option α :=
  (r.lookup name).bind convert

/-- A field that may be missing or nil. -/
def optional? (r : Record) (name : String) (convert : Value → Option α) : Option (Option α) :=
  match r.lookup name with
  | none => some none
  | some .nil => some none
  | some v => (convert v).map some

/-- A record as a map with its names. -/
def toValue (r : Record) : Value :=
  .map (r.map fun (name, value) => (.ofText name, value))

def write (r : Record) : Bytes :=
  r.toValue.write

end Record

end Rendezvous.MessagePack
