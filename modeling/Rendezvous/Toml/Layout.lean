import Rendezvous.Toml.Scan

/-!
What stands between the parts of a document: spaces, comments and line ends.
-/

namespace Rendezvous.Toml

def isSpace (c : Char) : Bool :=
  c == '\t' || c == ' '

/-- The characters that may stand as they are in comments and in quotes. Of the control characters
only the tab is one of them, and those beyond ASCII all are. -/
def isPlain (c : Char) : Bool :=
  c == '\t' || (0x20 ≤ c.toNat && c.toNat ≤ 0x7e) || 0x80 ≤ c.toNat

namespace Scan

def spaces : Scan Unit := do
  let _ ← span isSpace

/-- The end of a line: a line feed, perhaps with a carriage return before it. -/
def newline : Scan Unit :=
  char '\n' <|> word "\r\n"

/-- A comment, up to the end of its line. -/
def comment : Scan Unit := do
  char '#'
  let _ ← span isPlain

/-- Spaces, comments and line ends in any number. -/
def gap : Scan Unit := do
  let _ ← many ((do let _ ← one isSpace) <|> newline <|> comment)

/-- The end of a line or of the document. -/
def lineEnd : Scan Unit :=
  newline <|> finish

/-- What may stand behind the contents of a line. -/
def lineRest : Scan Unit := do
  spaces
  let _ ← optionally comment
  lineEnd

end Scan

end Rendezvous.Toml
