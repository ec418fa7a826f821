import Rendezvous.MessagePack.Value
import Rendezvous.Bytes.Endian

/-!
Reading MessagePack. A value is a head, which tells its kind and size, and what the head announces.
Containers (arrays, maps and extensions) may be nested, but only so deep.
-/

namespace Rendezvous.MessagePack

/-- The first `n` bytes and the rest, if there are `n`. -/
def split? (n : Nat) (bytes : Bytes) : Option (Bytes × Bytes) :=
  let first := bytes.take n
  if first.length = n then some (first, bytes.drop n) else none

/-- A number of the given width and the rest. -/
def readNat (width : Nat) (bytes : Bytes) : Option (Nat × Bytes) :=
  (split? width bytes).map fun (first, rest) => (BigEndian.decode first, rest)

/-- What the head of a value tells: the value itself, or how much follows. -/
inductive Head where
  | value (v : Value)
  | str (size : Nat)
  | bin (size : Nat)
  | ext (size : Nat)
  | array (count : Nat)
  | map (count : Nat)

/-- A head whose size is a number of the given width. -/
def sized (width : Nat) (head : Nat → Head) (bytes : Bytes) : Option (Head × Bytes) :=
  (readNat width bytes).map fun (n, rest) => (head n, rest)

/-- A number in two's complement of the given width. -/
def twosComplement (width n : Nat) : Int :=
  Int.bmod n (Nat.pow 256 width)

/-- Reads the head of a value. The marker `0xc1` is never used. -/
def readHead : Bytes → Option (Head × Bytes)
  | [] => none
  | marker :: rest =>
    if marker < 0x80 then some (.value (.unsigned marker.toNat), rest)
    else if marker < 0x90 then some (.map (marker &&& 0x0f).toNat, rest)
    else if marker < 0xa0 then some (.array (marker &&& 0x0f).toNat, rest)
    else if marker < 0xc0 then some (.str (marker &&& 0x1f).toNat, rest)
    else match marker with
      | 0xc0 => some (.value .nil, rest)
      | 0xc1 => none
      | 0xc2 => some (.value (.bool false), rest)
      | 0xc3 => some (.value (.bool true), rest)
      | 0xc4 => sized 1 .bin rest
      | 0xc5 => sized 2 .bin rest
      | 0xc6 => sized 4 .bin rest
      | 0xc7 => sized 1 .ext rest
      | 0xc8 => sized 2 .ext rest
      | 0xc9 => sized 4 .ext rest
      | 0xca => (split? 4 rest).map fun (bits, rest) => (.value (.float32 (.fit bits)), rest)
      | 0xcb => (split? 8 rest).map fun (bits, rest) => (.value (.float64 (.fit bits)), rest)
      | 0xcc => sized 1 (.value ∘ .unsigned) rest
      | 0xcd => sized 2 (.value ∘ .unsigned) rest
      | 0xce => sized 4 (.value ∘ .unsigned) rest
      | 0xcf => sized 8 (.value ∘ .unsigned) rest
      | 0xd0 => sized 1 (.value ∘ .signed ∘ twosComplement 1) rest
      | 0xd1 => sized 2 (.value ∘ .signed ∘ twosComplement 2) rest
      | 0xd2 => sized 4 (.value ∘ .signed ∘ twosComplement 4) rest
      | 0xd3 => sized 8 (.value ∘ .signed ∘ twosComplement 8) rest
      | 0xd4 => some (.ext 1, rest)
      | 0xd5 => some (.ext 2, rest)
      | 0xd6 => some (.ext 4, rest)
      | 0xd7 => some (.ext 8, rest)
      | 0xd8 => some (.ext 16, rest)
      | 0xd9 => sized 1 .str rest
      | 0xda => sized 2 .str rest
      | 0xdb => sized 4 .str rest
      | 0xdc => sized 2 .array rest
      | 0xdd => sized 4 .array rest
      | 0xde => sized 2 .map rest
      | 0xdf => sized 4 .map rest
      | _ => some (.value (.signed (twosComplement 1 marker.toNat)), rest)

/-- Reads a number of things one after the other, behind those already read, the last of which comes
first. -/
def readMany (read : Bytes → Option (α × Bytes)) : Nat → List α → Bytes → Option (List α × Bytes)
  | 0, done, bytes => some (done.reverse, bytes)
  | n + 1, done, bytes =>
    match read bytes with
    | some (a, rest) => readMany read n (a :: done) rest
    | none => none

def readBoth (read : Bytes → Option (α × Bytes)) (bytes : Bytes) : Option ((α × α) × Bytes) := do
  let (a, rest) ← read bytes
  let (b, rest) ← read rest
  return ((a, b), rest)

/-- Reads a value. What lies in a container is read by `nested`, which is missing where there may be no
container. -/
def readValue (nested : Option (Bytes → Option (Value × Bytes))) (bytes : Bytes) :
    Option (Value × Bytes) := do
  let (head, rest) ← readHead bytes
  match head with
  | .value v => some (v, rest)
  | .str n => (split? n rest).map fun (b, rest) => (.str b, rest)
  | .bin n => (split? n rest).map fun (b, rest) => (.bin b, rest)
  | .ext n =>
    match nested, split? (n + 1) rest with
    | some _, some (type :: data, rest) => some (.ext type data, rest)
    | _, _ => none
  | .array n =>
    let read ← nested
    (readMany read n [] rest).map fun (items, rest) => (.array items, rest)
  | .map n =>
    let read ← nested
    (readMany (readBoth read) n [] rest).map fun (entries, rest) => (.map entries, rest)

/-- Reads a value in which containers are nested at most so many levels deep. -/
def readWithin : Nat → Bytes → Option (Value × Bytes)
  | 0 => readValue none
  | levels + 1 => readValue (some (readWithin levels))

/-- How deep containers may be nested, the outermost one counted. -/
def maxLevels : Nat := 1023

/-- Reads the value at the start of a byte string, and leaves what comes behind it. -/
def read? (bytes : Bytes) : Option Value :=
  (readWithin maxLevels bytes).map Prod.fst

end Rendezvous.MessagePack
