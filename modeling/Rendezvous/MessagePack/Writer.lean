import Rendezvous.MessagePack.Value
import Rendezvous.Bytes.Endian

/-!
Writing MessagePack: every value in the shortest of its forms.
-/

namespace Rendezvous.MessagePack

/-- A marker and a number of the given width behind it. -/
def marked (marker : UInt8) (width n : Nat) : Bytes :=
  marker :: BigEndian.encode width n

/-- The head of a text of the given size. -/
def writeStrSize (n : Nat) : Bytes :=
  if n < 32 then [0xa0 ||| UInt8.ofNat n]
  else if n < 256 then marked 0xd9 1 n
  else if n < 65536 then marked 0xda 2 n
  else marked 0xdb 4 n

/-- The head of a byte string of the given size. -/
def writeBinSize (n : Nat) : Bytes :=
  if n < 256 then marked 0xc4 1 n
  else if n < 65536 then marked 0xc5 2 n
  else marked 0xc6 4 n

/-- The head of an array of the given number of items. -/
def writeArrayCount (n : Nat) : Bytes :=
  if n < 16 then [0x90 ||| UInt8.ofNat n]
  else if n < 65536 then marked 0xdc 2 n
  else marked 0xdd 4 n

/-- The head of a map of the given number of entries. -/
def writeMapCount (n : Nat) : Bytes :=
  if n < 16 then [0x80 ||| UInt8.ofNat n]
  else if n < 65536 then marked 0xde 2 n
  else marked 0xdf 4 n

def writeNat (n : Nat) : Bytes :=
  if n < 128 then [UInt8.ofNat n]
  else if n < 256 then marked 0xcc 1 n
  else if n < 65536 then marked 0xcd 2 n
  else if n < 4294967296 then marked 0xce 4 n
  else marked 0xcf 8 n

/-- A number marked as signed, in two's complement. -/
def writeInt (n : Int) : Bytes :=
  if -32 ≤ n ∧ n < 0 then [UInt8.ofInt n]
  else if -128 ≤ n ∧ n < 128 then marked 0xd0 1 (n % 256).toNat
  else if -32768 ≤ n ∧ n < 32768 then marked 0xd1 2 (n % 65536).toNat
  else if -2147483648 ≤ n ∧ n < 2147483648 then marked 0xd2 4 (n % 4294967296).toNat
  else marked 0xd3 8 (n % 18446744073709551616).toNat

/-- The head of an extension of the given size. -/
def writeExtSize (n : Nat) : Bytes :=
  if n = 1 then [0xd4] else if n = 2 then [0xd5] else if n = 4 then [0xd6]
  else if n = 8 then [0xd7] else if n = 16 then [0xd8]
  else if n < 256 then marked 0xc7 1 n
  else if n < 65536 then marked 0xc8 2 n
  else marked 0xc9 4 n

mutual

def Value.write : Value → Bytes
  | .nil => [0xc0]
  | .bool b => [if b then 0xc3 else 0xc2]
  | .unsigned n => writeNat n
  | .signed n => writeInt n
  | .float32 bits => 0xca :: bits.toList
  | .float64 bits => 0xcb :: bits.toList
  | .str bytes => writeStrSize bytes.length ++ bytes
  | .bin bytes => writeBinSize bytes.length ++ bytes
  | .array items => writeArrayCount items.length ++ writeItems items
  | .map entries => writeMapCount entries.length ++ writeEntries entries
  | .ext type data => writeExtSize data.length ++ type :: data

/-- The bytes of values one after the other. -/
def writeItems : List Value → Bytes
  | [] => []
  | v :: vs => v.write ++ writeItems vs

/-- The bytes of pairs of values one after the other. -/
def writeEntries : List (Value × Value) → Bytes
  | [] => []
  | (k, v) :: entries => k.write ++ v.write ++ writeEntries entries

end

end Rendezvous.MessagePack
