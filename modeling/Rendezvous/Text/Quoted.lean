import Rendezvous.Text.Unprintable

/-!
Texts as they are shown in descriptions: in quotes, with what could not be read on a screen
escaped, and records as a name with its fields in braces.
-/

namespace Rendezvous.Text

def hexadecimal (n : Nat) : String :=
  String.ofList (Nat.toDigits 16 n)

/-- A character inside quotes: the `quote` itself, the backslash and what has no glyph are escaped. -/
def escape (quote : Char) (c : Char) : String :=
  if c = quote then "\\" ++ c.toString
  else match c with
    | '\x00' => "\\0"
    | '\t' => "\\t"
    | '\n' => "\\n"
    | '\r' => "\\r"
    | '\\' => "\\\\"
    | c => if isPrintable c then c.toString else "\\u\x7b" ++ hexadecimal c.toNat ++ "\x7d"

def quotedChar (c : Char) : String :=
  "'" ++ escape '\'' c ++ "'"

def quoted (s : String) : String :=
  "\"" ++ String.join (s.toList.map (escape '"')) ++ "\""

/-- The items in square brackets, with commas between them. -/
def bracketed (items : List String) : String :=
  "[" ++ ", ".intercalate items ++ "]"

/-- The fields of a record, each as its name and its text. -/
private def fields (entries : List (String × String)) : List String :=
  entries.map fun (name, text) => name ++ ": " ++ text

def record (name : String) (entries : List (String × String)) : String :=
  name ++ " \x7b " ++ ", ".intercalate (fields entries) ++ " \x7d"

/-- A record with some of its fields, and two dots for the others. -/
def partialRecord (name : String) (entries : List (String × String)) : String :=
  name ++ " \x7b " ++ ", ".intercalate (fields entries ++ [".."]) ++ " \x7d"

end Rendezvous.Text
