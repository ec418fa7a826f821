import Rendezvous.Bytes.Octets
import Rendezvous.Text.Quoted

/-!
Hexadecimal text: two digits a byte, the high half first. Digits are written in lower case and read
in either. Main statements: what was written reads back (`decode_encodeDigits`), and reading an even
number of digits fails exactly where a byte is no digit.
-/

namespace Rendezvous.Hex

/-- Why a text is not hexadecimal. -/
inductive Error where
  /-- The number of bytes is odd, so some byte has only one digit. -/
  | oddLength
  /-- The byte at the index is not a digit. -/
  | invalidCharacter (byte : UInt8) (index : Nat)
  deriving DecidableEq, Repr

/-- What is wrong, in words. A byte is shown as the character whose code it is. -/
def Error.message : Error → String
  | .oddLength => "Odd number of digits"
  | .invalidCharacter byte index =>
    "Invalid character " ++ Text.quotedChar (Char.ofNat byte.toNat) ++ " at position " ++
      toString index

/-- The digit for a half of a byte, in lower case. -/
def digit (half : UInt8) : UInt8 :=
  if half < 10 then 0x30 + half else 0x57 + half

/-- The value of a digit, in lower or upper case. -/
def digitValue? (b : UInt8) : Option UInt8 :=
  if 0x30 ≤ b ∧ b ≤ 0x39 then some (b - 0x30)
  else if 0x61 ≤ b ∧ b ≤ 0x66 then some (b - 0x57)
  else if 0x41 ≤ b ∧ b ≤ 0x46 then some (b - 0x37)
  else none

def digits (b : UInt8) : Bytes :=
  [digit (b >>> 4), digit (b &&& 0x0f)]

def encodeDigits (bytes : Bytes) : Bytes :=
  bytes.flatMap digits

def encode (bytes : Bytes) : String :=
  String.ofList ((encodeDigits bytes).map fun b => Char.ofNat b.toNat)

/-- The value of the digit at an index. -/
def digitAt (b : UInt8) (index : Nat) : Except Error UInt8 :=
  match digitValue? b with
  | some v => .ok v
  | none => .error (.invalidCharacter b index)

/-- Reads pairs of digits, the first of which stands at `index`. -/
def decodeFrom (index : Nat) : Bytes → Except Error Bytes
  | high :: low :: rest => do
    let h ← digitAt high index
    let l ← digitAt low (index + 1)
    let bytes ← decodeFrom (index + 2) rest
    return (h <<< 4 ||| l) :: bytes
  | _ => .ok []

/-- Reads hexadecimal text, given as its bytes. An odd length is reported before any digit is. -/
def decode (text : Bytes) : Except Error Bytes :=
  if text.length % 2 = 0 then decodeFrom 0 text else .error .oddLength

/-! ### Reading back what was written -/

theorem digitValue?_digits (b : UInt8) :
    digitValue? (digit (b >>> 4)) = some (b >>> 4) ∧
      digitValue? (digit (b &&& 0x0f)) = some (b &&& 0x0f) ∧
      (b >>> 4) <<< 4 ||| (b &&& 0x0f) = b := by
  have all : ∀ n : Fin 256, let b := UInt8.ofFin n
      digitValue? (digit (b >>> 4)) = some (b >>> 4) ∧
      digitValue? (digit (b &&& 0x0f)) = some (b &&& 0x0f) ∧
      (b >>> 4) <<< 4 ||| (b &&& 0x0f) = b := by decide +kernel
  exact all b.toFin

@[simp] theorem length_encodeDigits (bytes : Bytes) :
    (encodeDigits bytes).length = 2 * bytes.length := by
  induction bytes with
  | nil => rfl
  | cons b bytes ih => simp_all [encodeDigits, digits]; omega

theorem decodeFrom_encodeDigits (index : Nat) (bytes : Bytes) :
    decodeFrom index (encodeDigits bytes) = .ok bytes := by
  induction bytes generalizing index with
  | nil => rfl
  | cons b bytes ih =>
    have h := digitValue?_digits b
    have ih := ih (index + 2)
    simp only [encodeDigits] at ih
    simp [encodeDigits, digits, decodeFrom, digitAt, h, ih, bind, Except.bind, pure, Except.pure]

theorem decode_encodeDigits (bytes : Bytes) : decode (encodeDigits bytes) = .ok bytes := by
  simp [decode, decodeFrom_encodeDigits]

end Rendezvous.Hex
