import Rendezvous.Bytes.Endian
import Rendezvous.Bytes.Hex

/-!
Addresses to listen on: a host and a port. A host is an address of version 4 or 6 of the internet
protocol, or a name. Main statement: the parts between separators are the text again when the
separators are put back (`intercalate_splitAt`).
-/

namespace Rendezvous

/-- A machine or one of its addresses. -/
inductive Host where
  | v4 (a b c d : UInt8)
  /-- Eight groups of 16 bits. -/
  | v6 (groups : List UInt16)
  | name (text : String)
  deriving DecidableEq, Repr

/-- Where to listen. -/
structure ListenAddress where
  host : Host
  port : UInt16
  deriving DecidableEq, Repr

namespace ListenAddress

/-! ### Numbers -/

/-- The number that digits write in a base. -/
def numeral? (base : Nat) (digits : List Char) : Option Nat :=
  if digits = [] then none
  else digits.foldlM (fun n c => do
    let d ← Hex.digitValue? (UInt8.ofNat c.toNat)
    if c.toNat < 128 ∧ d.toNat < base then return base * n + d.toNat else failure) 0

/-- A number in decimal digits which is below the bound. -/
def decimal? (bound : Nat) (digits : List Char) : Option Nat :=
  (numeral? 10 digits).filter (· < bound)

/-- The parts of a text between the given characters. -/
def splitAt (separator : Char) (text : List Char) : List (List Char) :=
  text.foldr (fun c parts =>
    if c = separator then [] :: parts
    else match parts with
      | [] => [[c]]
      | first :: rest => (c :: first) :: rest) [[]]

theorem splitAt_ne_nil (separator : Char) (text : List Char) : splitAt separator text ≠ [] := by
  cases text with
  | nil => simp [splitAt]
  | cons c text =>
    rw [splitAt, List.foldr_cons]
    split
    · simp
    · split <;> simp

theorem intercalate_splitAt (separator : Char) (text : List Char) :
    [separator].intercalate (splitAt separator text) = text := by
  induction text with
  | nil => rfl
  | cons c text ih =>
    have hcons : splitAt separator (c :: text) =
        if c = separator then [] :: splitAt separator text
        else match splitAt separator text with
          | [] => [[c]]
          | first :: rest => (c :: first) :: rest := rfl
    cases hparts : splitAt separator text with
    | nil => exact absurd hparts (splitAt_ne_nil separator text)
    | cons first rest =>
      rw [hparts] at ih
      by_cases hc : c = separator
      · cases rest <;> simp_all [List.intercalate, List.intersperse]
      · cases rest <;> simp_all [List.intercalate, List.intersperse]

/-! ### Addresses of version 4 -/

/-- A part of an address of version 4: hexadecimal behind `0x`, octal behind a zero, and else
decimal. -/
def part? : List Char → Option Nat
  | '0' :: 'x' :: digits => numeral? 16 digits
  | '0' :: 'X' :: digits => numeral? 16 digits
  | '0' :: digit :: digits => numeral? 8 (digit :: digits)
  | digits => numeral? 10 digits

/-- The bytes of an address whose parts are given, of which there are at most four. Each is a byte but
for the last, which fills what is left. -/
def bytesOfParts? (parts : List Nat) : Option Bytes := do
  let last ← parts.getLast?
  let first := parts.dropLast
  let width := 4 - first.length
  if first.all (· < 256) ∧ first.length < 4 ∧ last < Nat.pow 256 width then
    return first.map UInt8.ofNat ++ BigEndian.encode width last
  else failure

def v4? (text : List Char) : Option Host := do
  match ← bytesOfParts? (← (splitAt '.' text).mapM part?) with
  | [a, b, c, d] => return .v4 a b c d
  | _ => failure

/-! ### Addresses of version 6 -/

/-- A group of an address of version 6: up to four hexadecimal digits. -/
def group? (digits : List Char) : Option UInt16 :=
  if digits.length ≤ 4 then (numeral? 16 digits).map UInt16.ofNat else none

def byte? (digits : List Char) : Option Nat :=
  if 1 < digits.length ∧ digits.head? = some '0' then none else decimal? 256 digits

/-- Two groups that are written as an address of version 4, in four decimal bytes. -/
def groupPair? (text : List Char) : Option (List UInt16) := do
  match ← (splitAt '.' text).mapM byte? with
  | [a, b, c, d] => return [UInt16.ofNat (256 * a + b), UInt16.ofNat (256 * c + d)]
  | _ => failure

/-- Groups with colons between them, or none. -/
def groups? (text : List Char) : Option (List UInt16) :=
  if text = [] then some [] else (splitAt ':' text).mapM group?

/-- Groups with colons between them, or none. The last two may be written as an address of version
4. -/
def lastGroups? (text : List Char) : Option (List UInt16) :=
  let parts := splitAt ':' text
  match groupPair? (parts.getLast?.getD []) with
  | some pair => (parts.dropLast.mapM group?).map (· ++ pair)
  | none => groups? text

/-- The texts before and behind the first two colons in a row. -/
def splitDoubleColon : List Char → Option (List Char × List Char)
  | ':' :: ':' :: rest => some ([], rest)
  | c :: rest => (splitDoubleColon rest).map fun (before, after) => (c :: before, after)
  | [] => none

/-- All eight groups of an address. Two colons in a row stand for those that are not written. -/
def allGroups? (text : List Char) : Option (List UInt16) := do
  match splitDoubleColon text with
  | some (before, after) =>
    let before ← groups? before
    let after ← lastGroups? after
    let missing := 8 - (before.length + after.length)
    if missing = 0 then failure
    return before ++ List.replicate missing 0 ++ after
  | none =>
    let groups ← lastGroups? text
    if groups.length ≠ 8 then failure
    return groups

/-- An address of version 6, and perhaps the number of its zone behind a percent sign. -/
def v6? (text : List Char) : Option Host :=
  let (address, zone) := text.span (· != '%')
  if zone = [] ∨ (decimal? UInt32.size zone.tail).isSome then (allGroups? address).map Host.v6
  else none

/-! ### Hosts and ports -/

/-- A host that is not in brackets. A name has no colon. -/
def host? (text : List Char) : Option Host :=
  if text = [] then none
  else (v4? text).or ((v6? text).or
    (if text.contains ':' then none else some (.name (String.ofList text))))

/-- A port. A plus sign before it does no harm. -/
def port? (text : List Char) : Option UInt16 :=
  let digits := if text.head? = some '+' then text.tail else text
  (decimal? 65536 digits).map UInt16.ofNat

/-- Reads an address: a host, a colon and a port. A host in brackets is one of version 6, and the port
behind it has no sign. -/
def ofText? (text : String) : Option ListenAddress := do
  let (port, rest) := text.toList.reverse.span (· != ':')
  let port := port.reverse
  match rest with
  | [] => failure
  | _ :: host =>
    match host.reverse with
    | '[' :: inside =>
      if inside.getLast? ≠ some ']' ∨ port.head? = some '+' then failure
      return ⟨← v6? inside.dropLast, ← port? port⟩
    | host => return ⟨← host? host, ← port? port⟩

/-! ### Kinds of addresses -/

/-- Whether the address is one of the machine itself, or all that it has. -/
def isLocal (a : ListenAddress) : Bool :=
  match a.host with
  | .v4 127 _ _ _ | .v4 0 0 0 0 => true
  | .v4 .. => false
  | .v6 [0, 0, 0, 0, 0, 0, 0, n] => n == 0 || n == 1
  | .v6 [0, 0, 0, 0, 0, 0xffff, m, n] => m >>> 8 == 127 || m == 0 && n == 0
  | .v6 _ => false
  | .name text => text.toLower == "localhost"

/-- Whether the address is of version 4, all that the machine has, or a name of the machine. An address
of version 4 can also be written as one of version 6. -/
def isVersion4 (a : ListenAddress) : Bool :=
  match a.host with
  | .v4 .. => true
  | .v6 [0, 0, 0, 0, 0, 0xffff, _, _] => true
  | .v6 groups => groups.all (· == 0)
  | .name _ => a.isLocal

end ListenAddress

end Rendezvous
