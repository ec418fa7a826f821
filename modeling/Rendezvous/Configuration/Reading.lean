import Rendezvous.Configuration.Basic
import Rendezvous.Toml.Document
import Rendezvous.Text.Utf8

/-!
Reading a configuration from a document. A setting that is missing keeps its default, and a name that
is not known is passed over, but a value of the wrong kind is an error. The settings of a section are
given by name, or in their order as an array. Main statement: a document that says nothing of the
sections gives the defaults (`ofEntries?_empty`).
-/

namespace Rendezvous

/-- Why a configuration cannot be used. -/
inductive ConfigurationError where
  /-- The file is missing, or is not text. -/
  | unreadable
  /-- The file is not a document, or has a value of the wrong kind. -/
  | malformed
  | invalid (setting : InvalidSetting)
  deriving DecidableEq, Repr

namespace Configuration

open Toml

/-- A section of the configuration: its settings by name, or in their order. -/
inductive Section where
  | named (entries : Entries)
  | inOrder (items : List Node)

namespace Section

/-- The section that a value is. A moment counts as a section without settings. -/
def ofNode? : Node → Option Section
  | .table _ entries => some (.named entries)
  | .array items => some (.inOrder items)
  | .tables elements => some (.inOrder (elements.reverse.map (.table .header)))
  | .moment _ => some (.named ∅)
  | _ => none

/-- The value of the setting with a name and a place in the order. -/
def find? (s : Section) (name : String) (index : Nat) : Option Node :=
  match s with
  | .named entries => entries.get? name
  | .inOrder items => items[index]?

/-- Reads a setting, which has a default. -/
def setting (s : Section) (name : String) (index : Nat) (read : Node → Option α) (default : α) :
    Option α :=
  match s.find? name index with
  | some node => read node
  | none => some default

end Section

def text? : Node → Option String
  | .text s => some s
  | _ => none

/-- Reads a number that is not negative. -/
def number? : Node → Option UInt64
  | .integer n => if 0 ≤ n then some (UInt64.ofNat n.toNat) else none
  | _ => none

def texts? : Node → Option (List String)
  | .array items => items.mapM text?
  | _ => none

def overflowNamed? : String → Option Overflow
  | "block" => some .block
  | "drop" => some .drop
  | _ => none

/-- Whether a value is an array or a table without contents. -/
def isEmpty : Node → Bool
  | .array items => items.isEmpty
  | .table _ entries => entries.isEmpty
  | .tables elements => elements.isEmpty
  | _ => false

/-- Reads a policy: its name, or a table in which its name has an empty value. -/
def overflow? : Node → Option Overflow
  | .text name => overflowNamed? name
  | .table _ entries =>
    match entries.toList with
    | [(name, node)] => if isEmpty node then overflowNamed? name else none
    | _ => none
  | _ => none

def listen? (s : Section) : Option ListenSettings := do
  let bindAddress ← s.setting "bind_address" 0 text? ({} : ListenSettings).bindAddress
  let subprotocols ← s.setting "subprotocols" 1 texts? ({} : ListenSettings).subprotocols
  return { bindAddress, subprotocols }

def keys? (s : Section) : Option KeySettings := do
  let permanent ← s.setting "permanent" 0 texts? ({} : KeySettings).permanent
  return { permanent }

def workers? (s : Section) : Option WorkerSettings := do
  let size ← s.setting "size" 0 number? ({} : WorkerSettings).size
  let queueCapacity ← s.setting "queue_capacity" 1 number? ({} : WorkerSettings).queueCapacity
  let overflow ← s.setting "overflow" 2 overflow? ({} : WorkerSettings).overflow
  return { size, queueCapacity, overflow }

def limits? (s : Section) : Option LimitSettings := do
  let handshakeTimeout ←
    s.setting "handshake_timeout_secs" 0 number? ({} : LimitSettings).handshakeTimeout
  let maxMessageSize ← s.setting "max_message_size" 1 number? ({} : LimitSettings).maxMessageSize
  return { handshakeTimeout, maxMessageSize }

/-- Reads the section with a name, which has a default. -/
def readSection (entries : Entries) (name : String) (read : Section → Option α) (default : α) :
    Option α :=
  match entries.get? name with
  | some node => (Section.ofNode? node).bind read
  | none => some default

/-- Reads a configuration from the outermost table of a document. -/
def ofEntries? (entries : Entries) : Option Configuration := do
  let server ← readSection entries "server" listen? {}
  let keys ← readSection entries "keys" keys? {}
  let workers ← readSection entries "workers" workers? {}
  let limits ← readSection entries "limits" limits? {}
  return { server, keys, workers, limits }

/-- Reads a configuration from the contents of a file, if there is one. -/
def load (contents : Option Bytes) : Except ConfigurationError Configuration :=
  match contents.bind Text.ofUtf8? with
  | none => .error .unreadable
  | some text =>
    match (parse? text).bind ofEntries? with
    | none => .error .malformed
    | some c => .ok c

theorem ofEntries?_empty : ofEntries? ∅ = some {} := rfl

end Configuration

end Rendezvous
