import Rendezvous.Toml.Node

/-!
Documents. A document is read as a list of lines, and the lines are then gathered into its tables.
-/

namespace Rendezvous.Toml

/-- How deep arrays and tables in braces may be nested in a value. -/
def maxLevels : Nat := 79

/-- How many names a key may have. -/
def maxNames : Nat := 79

namespace Scan

/-- A name: letters, digits, underscores and dashes, or any text in quotes. -/
def name : Scan String :=
  singleLine '"' true <|> singleLine '\'' false <|> do
    let cs ← span fun c => c.isAlphanum || c == '_' || c == '-'
    guard (cs ≠ [])
    return String.ofList cs

/-- A name with spaces around it. -/
def spacedName : Scan String := do
  spaces
  let n ← name
  spaces
  return n

def keyPath : Scan KeyPath := do
  let parents ← many (do let n ← spacedName; char '.'; return n)
  let last ← spacedName
  guard (parents.length < maxNames)
  return ⟨parents, last⟩

def scalar : Scan Node :=
  Node.text <$> quotedText <|>
  (do word "true"; return .boolean true) <|>
  (do word "false"; return .boolean false) <|>
  Node.moment <$> moment <|>
  Node.float <$> float <|>
  Node.integer <$> integer

/-- An array of things. There may be a comma behind the last. -/
def arrayOf (item : Scan Node) : Scan Node := do
  char '['
  let items ← separated (do gap; let v ← item; gap; return v)
  if items ≠ [] then let _ ← optionally (char ',')
  gap
  char ']'
  return .array items

def assignment (item : Scan Node) : Scan (KeyPath × Node) := do
  let key ← keyPath
  char '='
  spaces
  return (key, ← item)

/-- A table in braces, on one line. There is no comma behind the last entry. -/
def tableOf (item : Scan Node) : Scan Node := do
  char '{'
  let pairs ← separated (do let pair ← assignment item; spaces; return pair)
  spaces
  char '}'
  return .table .inline (← Entries.inline pairs)

/-- A value in which arrays and tables are nested at most so many levels deep. -/
def valueWithin : Nat → Scan Node
  | 0 => scalar
  | levels + 1 =>
    scalar <|> arrayOf (valueWithin levels) <|> tableOf (valueWithin levels)

end Scan

/-- What a line of a document does. -/
inductive Line where
  /-- Nothing: it is empty, or a comment. -/
  | blank
  /-- Opens a table, to which the lines behind it belong. -/
  | table (path : KeyPath)
  /-- Opens the next table of an array of tables. -/
  | element (path : KeyPath)
  /-- Gives a key a value. -/
  | entry (key : KeyPath) (node : Node)

namespace Scan

def line : Scan Line := do
  spaces
  (do comment; lineEnd; return .blank) <|>
  (do newline; return .blank) <|>
  (do word "[["; let path ← keyPath; word "]]"; lineRest; return .element path) <|>
  (do char '['; let path ← keyPath; char ']'; lineRest; return .table path) <|>
  (do let (key, node) ← assignment (valueWithin maxLevels); lineRest; return .entry key node)

/-- All lines of a document. It may start with a byte order mark. -/
def lines : Scan (List Line) := do
  let _ ← optionally (char '\ufeff')
  let ls ← many line
  spaces
  finish
  return ls

end Scan

/-- A document that has been read in part: the table to which the next line belongs, and all tables. -/
structure Draft where
  current : List String
  root : Entries

/-- What a document becomes by its next line. -/
def Draft.add (draft : Draft) : Line → Option Draft
  | .blank => some draft
  | .table path =>
    (draft.root.descend (Entries.openTable path.name) path.parents).map fun root =>
      ⟨path.names, root⟩
  | .element path =>
    (draft.root.descend (Entries.openElement path.name) path.parents).map fun root =>
      ⟨path.names, root⟩
  | .entry key node =>
    (draft.root.descend (Entries.assign key.name node key.parents) draft.current).map fun root =>
      { draft with root }

/-- The outermost table of a document, if its lines agree with each other. -/
def ofLines? (lines : List Line) : Option Entries :=
  (lines.foldlM Draft.add ⟨[], ∅⟩).map Draft.root

def parse? (text : String) : Option Entries := do
  let (lines, _) ← Scan.lines.run text.toList
  ofLines? lines

end Rendezvous.Toml
