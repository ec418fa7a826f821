import Rendezvous.Connection
import Rendezvous.Text.Utf8
import Rendezvous.WebSocket.Frame

/-!
Putting the frames of a client together to messages.
-/

namespace Rendezvous.WebSocket

/-- The message that was begun and not yet ended: whether it is a text, and its bytes so far. -/
structure Assembly where
  begun : Option (Bool × Bytes)
  deriving DecidableEq

namespace Assembly

def empty : Assembly := ⟨none⟩

def complete (isText : Bool) (data : Bytes) : Except Fault Incoming :=
  if isText then
    match Text.ofUtf8? data with
    | some _ => .ok .text
    | none => .error .notText
  else .ok (.binary data)

/-- Takes another part of a message in. -/
def extend (limit : Nat) (isText final : Bool) (data : Bytes) :
    Except Fault (Option Incoming × Assembly) :=
  if limit < data.length then .error .tooBig
  else if final then (complete isText data).map fun m => (some m, empty)
  else .ok (none, ⟨some (isText, data)⟩)

/-- A close frame: nothing, or a number of two bytes and a text. -/
def readClose : Bytes → Except Fault Incoming
  | [] => .ok .closed
  | [_] => .error .violation
  | _ :: _ :: text =>
    match Text.ofUtf8? text with
    | some _ => .ok .closed
    | none => .error .notText

/-- Takes a frame in. Frames about the connection may stand between the parts of a message. -/
def add (limit : Nat) (a : Assembly) (f : Frame) : Except Fault (Option Incoming × Assembly) :=
  match f.opcode, a.begun with
  | .ping, _ => .ok (some (.ping f.payload), a)
  | .pong, _ => .ok (some .pong, a)
  | .close, _ => (readClose f.payload).map fun m => (some m, a)
  | .continuation, some (isText, data) => extend limit isText f.final (data ++ f.payload)
  | .continuation, none => .error .violation
  | .text, none => extend limit true f.final f.payload
  | .binary, none => extend limit false f.final f.payload
  | .text, some _ | .binary, some _ => .error .violation

/-- How a client that cannot be understood any more appears to the relay. -/
def ofFault : Fault → Incoming
  | .violation => .violation
  | .tooBig => .tooBig
  | .notText => .gone

/-- Everything that can be read in the bytes that a client sent, in at most so many frames, and what is
left of them. Behind a fault nothing is read any more. -/
def readAll (limit : Nat) : Nat → Assembly → Bytes → List Incoming × Assembly × Bytes
  | 0, a, bytes => ([], a, bytes)
  | n + 1, a, bytes =>
    match Frame.read limit bytes with
    | .error e => ([ofFault e], a, [])
    | .ok none => ([], a, bytes)
    | .ok (some (f, rest)) =>
      match a.add limit f with
      | .error e => ([ofFault e], a, [])
      | .ok (m, a) =>
        let (ms, a, rest) := readAll limit n a rest
        (m.toList ++ ms, a, rest)

/-- Everything that can be read in the bytes that a client sent, and what is left of them. A frame has two
bytes at least. -/
def read (limit : Nat) (a : Assembly) (bytes : Bytes) : List Incoming × Assembly × Bytes :=
  readAll limit bytes.length a bytes

end Assembly

end Rendezvous.WebSocket
