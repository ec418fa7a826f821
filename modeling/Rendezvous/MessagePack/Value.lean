import Rendezvous.Bytes.Octets
import Rendezvous.Text.Utf8

/-!
Values of MessagePack, and how a value is taken for a text, a byte string, a number or a list of
them. A reader of values is lenient where writers differ: byte strings may come as arrays of
numbers, texts as byte strings, and numbers in any width.
-/

namespace Rendezvous.MessagePack

/-- A value of MessagePack. Numbers keep whether they were marked as signed. -/
inductive Value where
  | nil
  | bool (b : Bool)
  | unsigned (n : Nat)
  | signed (n : Int)
  | float32 (bits : Octets 4)
  | float64 (bits : Octets 8)
  | str (bytes : Bytes)
  | bin (bytes : Bytes)
  | array (items : List Value)
  | map (entries : List (Value × Value))
  | ext (type : UInt8) (data : Bytes)

namespace Value

def toBool? : Value → Option Bool
  | bool b => some b
  | _ => none

/-- A natural number below a bound, whatever its marker. -/
def toNat? (bound : Nat) : Value → Option Nat
  | unsigned n => if n < bound then some n else none
  | signed n => if 0 ≤ n ∧ n.toNat < bound then some n.toNat else none
  | _ => none

def toByte? (v : Value) : Option UInt8 :=
  (v.toNat? 256).map UInt8.ofNat

/-- A text, which may come as a byte string. -/
def toText? : Value → Option String
  | str bytes => Text.ofUtf8? bytes
  | bin bytes => Text.ofUtf8? bytes
  | _ => none

/-- A byte string, which may come as an array of bytes, or marked as a text that it cannot be. -/
def toBytes? : Value → Option Bytes
  | bin bytes => some bytes
  | array items => items.mapM toByte?
  | str bytes => if (Text.ofUtf8? bytes).isSome then none else some bytes
  | _ => none

/-- A list of bytes, which may come as a byte string. -/
def toByteList? : Value → Option (List UInt8)
  | bin bytes => some bytes
  | array items => items.mapM toByte?
  | _ => none

/-- A list of texts, which may come as an empty byte string. -/
def toTexts? : Value → Option (List String)
  | array items => items.mapM toText?
  | bin [] => some []
  | _ => none

end Value

end Rendezvous.MessagePack
