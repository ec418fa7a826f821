import Rendezvous.Toml.Quotation

/-!
Integers and floating-point numbers. An underscore may stand between two digits. Integers have 64 bits
with a sign; a positive number with a fraction or an exponent must be finite as a binary64 number.
-/

namespace Rendezvous.Toml

/-- A number with a fraction or an exponent: its digits and the power of ten by which they are multiplied;
or one of the numbers that no digits write. -/
inductive FloatLiteral where
  | decimal (negative : Bool) (digits : List Char) (exponent : Int)
  | infinite (negative : Bool)
  | notANumber
  deriving DecidableEq, Repr

/-- The number that digits write in a base, if it is below the bound, and else some number that is not. No
more digits are taken into account than it takes to tell. -/
def ofDigitsBelow (bound base : Nat) (digits : List Char) : Nat :=
  digits.foldl (fun n c => if n < bound then base * n + hexValue c else n) 0

/-- Half a step above the largest finite binary64 number. All numbers from here on round to infinity. -/
def binary64Limit : Nat :=
  Nat.pow 2 1024 - Nat.pow 2 970

/-- How many decimal digits the limit has. -/
def binary64Digits : Nat := 309

/-- Whether a number rounds to infinity that is written with the digits and a power of ten. Of a number
with as many places before its point as the limit has digits, only these places tell. -/
def roundsToInfinity (digits : List Char) (exponent : Int) : Bool :=
  let digits := digits.dropWhile (· == '0')
  let places : Int := digits.length + exponent
  if digits = [] ∨ places < binary64Digits then false
  else if binary64Digits < places then true
  else
    let first := digits.take binary64Digits
    binary64Limit ≤ ofDigits 10 first * Nat.pow 10 (binary64Digits - first.length)

example : (Nat.toDigits 10 binary64Limit).length = binary64Digits := by decide +kernel

theorem foldl_eq_of_not_lt {bound base n : Nat} (h : ¬ n < bound) (digits : List Char) :
    digits.foldl (fun n c => if n < bound then base * n + hexValue c else n) n = n := by
  induction digits with
  | nil => rfl
  | cons c digits ih => simpa [h] using ih

theorem foldl_eq_foldl_of_lt {bound base n : Nat} {digits : List Char}
    (h : digits.foldl (fun n c => if n < bound then base * n + hexValue c else n) n < bound) :
    digits.foldl (fun n c => if n < bound then base * n + hexValue c else n) n =
      digits.foldl (fun n c => base * n + hexValue c) n := by
  induction digits generalizing n with
  | nil => rfl
  | cons c digits ih =>
    by_cases hn : n < bound
    · simp only [List.foldl_cons, hn, if_true] at h ⊢
      exact ih h
    · rw [foldl_eq_of_not_lt hn] at h
      exact absurd h hn

theorem ofDigitsBelow_eq_of_lt {bound base : Nat} {digits : List Char}
    (h : ofDigitsBelow bound base digits < bound) :
    ofDigitsBelow bound base digits = ofDigits base digits :=
  foldl_eq_foldl_of_lt h

namespace Scan

/-- Whether there is a minus sign. A plus sign is taken too. -/
def sign : Scan Bool :=
  (do char '-'; return true) <|> (do char '+'; return false) <|> pure false

/-- Digits, some of which may have an underscore between them. -/
def digits (p : Char → Bool) : Scan (List Char) := do
  let d ← one p
  let ds ← many (do let _ ← optionally (char '_'); one p)
  return d :: ds

/-- Decimal digits that do not start with a needless zero. -/
def wholeDigits : Scan (List Char) := do
  let ds ← digits Char.isDigit
  guard (ds.length = 1 ∨ ds.head? ≠ some '0')
  return ds

/-- An integer in a base other than ten: a mark, and digits. There is no sign. -/
def based (mark : String) (base : Nat) (p : Char → Bool) : Scan Int := do
  word mark
  return ofDigitsBelow UInt64.size base (← digits p)

def decimalInteger : Scan Int := do
  let negative ← sign
  let n : Int := ofDigitsBelow UInt64.size 10 (← wholeDigits)
  return if negative then -n else n

/-- An integer that fits into 64 bits. -/
def integer : Scan Int := do
  let n ← based "0x" 16 isHexDigit <|> based "0o" 8 (fun c => '0' ≤ c && c ≤ '7') <|>
    based "0b" 2 (fun c => c == '0' || c == '1') <|> decimalInteger
  guard (Int64.minValue.toInt ≤ n ∧ n ≤ Int64.maxValue.toInt)
  return n

/-- The part of a number behind its point. -/
def fraction : Scan (List Char) := do
  char '.'
  digits Char.isDigit

/-- Exponents from here on need not be exact. -/
def exponentBound : Nat := 65536

/-- The power of ten by which a number is multiplied. -/
def exponent : Scan Int := do
  char 'e' <|> char 'E'
  let negative ← sign
  let n : Int := ofDigitsBelow exponentBound 10 (← digits Char.isDigit)
  return if negative then -n else n

/-- The digits of a number that has a fraction or an exponent. -/
def decimalFloat (negative : Bool) : Scan FloatLiteral := do
  let whole ← wholeDigits
  let part ← optionally fraction
  let power ← optionally exponent
  guard (part.isSome ∨ power.isSome)
  let part := part.getD []
  let power := power.getD 0 - part.length
  guard (negative ∨ roundsToInfinity (whole ++ part) power = false)
  return .decimal negative (whole ++ part) power

def float : Scan FloatLiteral := do
  let negative ← sign
  (do word "inf"; return .infinite negative) <|> (do word "nan"; return .notANumber) <|>
    decimalFloat negative

end Scan

end Rendezvous.Toml
