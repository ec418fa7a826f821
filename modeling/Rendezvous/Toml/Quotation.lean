import Rendezvous.Toml.Layout

/-!
Quoted texts. Double quotes give a text with escapes, single quotes one without. Three quotes in
place of one allow the text to run over several lines.
-/

namespace Rendezvous.Toml

/-- The value of a hexadecimal digit in either case. -/
def hexValue (c : Char) : Nat :=
  if c.isDigit then c.toNat - '0'.toNat
  else if 'a' ≤ c then c.toNat - 'a'.toNat + 10
  else c.toNat - 'A'.toNat + 10

/-- Whether a character is a hexadecimal digit in either case. -/
def isHexDigit (c : Char) : Bool :=
  c.isDigit || ('a' ≤ c && c ≤ 'f') || ('A' ≤ c && c ≤ 'F')

/-- The number that digits write in a base. -/
def ofDigits (base : Nat) (digits : List Char) : Nat :=
  digits.foldl (fun n c => base * n + hexValue c) 0

namespace Scan

/-- The character whose code is written with the given number of hexadecimal digits. -/
def codePoint (width : Nat) : Scan Char := do
  let n := ofDigits 16 (← exactly width isHexDigit)
  guard n.isValidChar
  return Char.ofNat n

/-- A character that is written as a backslash and a letter, or as its code. -/
def escaped : Scan Char := do
  char '\\'
  match ← one fun _ => true with
  | 'b' => return '\x08'
  | 't' => return '\t'
  | 'n' => return '\n'
  | 'f' => return '\x0c'
  | 'r' => return '\r'
  | '"' => return '"'
  | '\\' => return '\\'
  | 'u' => codePoint 4
  | 'U' => codePoint 8
  | _ => failure

/-- A character between the given quotes that stands for itself. -/
def unescaped (quote : Char) (escapes : Bool) : Scan Char :=
  one fun c => isPlain c && c != quote && !(escapes && c == '\\')

/-- A text on one line between the given quotes. -/
def singleLine (quote : Char) (escapes : Bool) : Scan String := do
  char quote
  let cs ← many (unescaped quote escapes <|> (do guard escapes; escaped))
  char quote
  return String.ofList cs

/-- A backslash at the end of a line, which leaves out all spaces and line ends up to the next other
character. -/
def continuation : Scan Unit := do
  char '\\'
  spaces
  newline
  let _ ← many ((do let _ ← one isSpace) <|> newline)

/-- A part of a text over several lines without its quotes. However a line ends, the text has a line
feed there. -/
def multiLinePart (quote : Char) (escapes : Bool) : Scan (List Char) :=
  (do return [← unescaped quote escapes]) <|>
  (do newline; return ['\n']) <|>
  (do guard escapes; continuation; return []) <|>
  (do guard escapes; return [← escaped])

/-- One or two quotes inside a text over several lines, which is to go on behind them. -/
def innerQuotes (quote : Char) : Scan (List Char) := do
  let quotes ← span (· == quote)
  guard (0 < quotes.length ∧ quotes.length ≤ 2)
  let _ ← peek
  return quotes

/-- The quotes at the end of a text over several lines: three that close it, and before them up to two
that belong to it. -/
def closingQuotes (quote : Char) : Scan (List Char) := do
  let quotes ← span (· == quote)
  guard (3 ≤ quotes.length ∧ quotes.length ≤ 5)
  return quotes.drop 3

/-- A text over several lines. A line end right behind the opening quotes is not part of it. -/
def multiLine (quote : Char) (escapes : Bool) : Scan String := do
  char quote; char quote; char quote
  let _ ← optionally newline
  let parts ← many (multiLinePart quote escapes <|> innerQuotes quote)
  return String.ofList (parts.flatten ++ (← closingQuotes quote))

/-- A quoted text that stands as a value. -/
def quotedText : Scan String :=
  multiLine '"' true <|> singleLine '"' true <|> multiLine '\'' false <|> singleLine '\'' false

end Scan

end Rendezvous.Toml
