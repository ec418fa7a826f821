import Rendezvous.Toml.Quotation

/-!
Dates and times of day. A date exists in the calendar; a second may be a leap second.
-/

namespace Rendezvous.Toml

/-- A day of the calendar. -/
structure Date where
  year : Nat
  month : Nat
  day : Nat
  deriving DecidableEq, Repr

/-- A time of day. The digits behind the second are kept as they are written. -/
structure TimeOfDay where
  hour : Nat
  minute : Nat
  second : Nat
  fraction : List Char
  deriving DecidableEq, Repr

/-- A date, a time of day, or both, and then perhaps by how many minutes the clock is ahead of universal
time. -/
inductive Moment where
  | date (d : Date)
  | time (t : TimeOfDay)
  | both (d : Date) (t : TimeOfDay) (offset : Option Int)
  deriving DecidableEq, Repr

/-- Whether February of the year has 29 days. -/
def isLeapYear (year : Nat) : Bool :=
  year % 4 == 0 && (year % 100 != 0 || year % 400 == 0)

/-- How many days a month has. There is no other month than the first to the twelfth. -/
def daysInMonth (year : Nat) : Nat → Nat
  | 2 => if isLeapYear year then 29 else 28
  | 4 | 6 | 9 | 11 => 30
  | 1 | 3 | 5 | 7 | 8 | 10 | 12 => 31
  | _ => 0

namespace Scan

/-- A number of exactly so many digits, which is not larger than the bound. -/
def fixed (width bound : Nat) : Scan Nat := do
  let n := ofDigits 10 (← exactly width Char.isDigit)
  guard (n ≤ bound)
  return n

def date : Scan Date := do
  let year ← fixed 4 9999
  char '-'
  let month ← fixed 2 12
  char '-'
  let day ← fixed 2 31
  guard (1 ≤ day ∧ day ≤ daysInMonth year month)
  return ⟨year, month, day⟩

def timeOfDay : Scan TimeOfDay := do
  let hour ← fixed 2 23
  char ':'
  let minute ← fixed 2 59
  char ':'
  let second ← fixed 2 60
  let part ← optionally (do
    char '.'
    let d ← one Char.isDigit
    return d :: (← span Char.isDigit))
  return ⟨hour, minute, second, part.getD []⟩

/-- How far ahead of universal time a clock is, in minutes. -/
def offset : Scan Int :=
  (do
    char 'Z' <|> char 'z'
    return 0) <|> do
    let ahead ← (do char '+'; return true) <|> (do char '-'; return false)
    let hours ← fixed 2 23
    char ':'
    let minutes ← fixed 2 59
    let n : Int := 60 * hours + minutes
    return if ahead then n else -n

/-- A date, a time of day or both. -/
def moment : Scan Moment :=
  (do
    let d ← date
    let clock ← optionally (do
      char 'T' <|> char 't' <|> char ' '
      let t ← timeOfDay
      return (t, ← optionally offset))
    match clock with
    | some (t, ahead) => return .both d t ahead
    | none => return .date d) <|>
  Moment.time <$> timeOfDay

end Scan

end Rendezvous.Toml
