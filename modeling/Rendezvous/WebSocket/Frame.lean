import Rendezvous.Bytes.Endian
import Rendezvous.Bytes.Octets

/-!
Frames of the WebSocket transport. A client masks what it sends and a server does not. Main statements:
an opcode is read from its number (`ofNumber?_number`), and taking a mask off undoes putting it on
(`mask_mask`).
-/

namespace Rendezvous.WebSocket

/-- What a frame is for. -/
inductive Opcode where
  | continuation
  | text
  | binary
  | close
  | ping
  | pong
  deriving DecidableEq, Repr

namespace Opcode

def number : Opcode → UInt8
  | .continuation => 0
  | .text => 1
  | .binary => 2
  | .close => 8
  | .ping => 9
  | .pong => 10

/-- The opcode of a number. All other numbers are reserved. -/
def ofNumber? (n : UInt8) : Option Opcode :=
  [.continuation, .text, .binary, .close, .ping, .pong].find? (·.number == n)

/-- Whether a frame is about the connection, and no part of a message. -/
def isControl : Opcode → Bool
  | .close | .ping | .pong => true
  | .continuation | .text | .binary => false

theorem ofNumber?_number (o : Opcode) : ofNumber? o.number = some o := by
  cases o <;> rfl

end Opcode

/-- A frame. A message may be spread over several, of which the last is marked as final. -/
structure Frame where
  final : Bool
  opcode : Opcode
  payload : Bytes
  deriving DecidableEq

/-- Why a client cannot be understood any more. -/
inductive Fault where
  /-- It broke the rules of the transport. -/
  | violation
  /-- A message exceeds the size limit. -/
  | tooBig
  /-- A text is not in UTF-8. -/
  | notText
  deriving DecidableEq, Repr

namespace Frame

/-- The length of a payload in the second byte of a frame and behind it. -/
def writeLength (n : Nat) : Bytes :=
  if n < 126 then [UInt8.ofNat n]
  else if n < 65536 then 126 :: BigEndian.encode 2 n
  else 127 :: BigEndian.encode 8 n

/-- The frame as a server sends it. -/
def write (f : Frame) : Bytes :=
  let first := if f.final then 0x80 ||| f.opcode.number else f.opcode.number
  first :: writeLength f.payload.length ++ f.payload

/-- A frame as a client sends it, with its first byte given and a mask of zeros. -/
def writeForClient (first : UInt8) (payload : Bytes) : Bytes :=
  let masked := fun second => 0x80 ||| second
  first :: (writeLength payload.length).modifyHead masked ++ [0, 0, 0, 0] ++ payload

/-- The first `n` bytes and the rest, if there are so many. -/
def takeExactly? (n : Nat) (bytes : Bytes) : Option (Bytes × Bytes) :=
  if n ≤ bytes.length then some (bytes.take n, bytes.drop n) else none

/-- Reads the length of a payload, of which the second byte of the frame is given. -/
def readLength (second : UInt8) (bytes : Bytes) : Option (Nat × Bytes) :=
  let short := (second &&& 0x7f).toNat
  let long := fun width => (takeExactly? width bytes).map fun (b, rest) => (BigEndian.decode b, rest)
  if short = 126 then long 2
  else if short = 127 then long 8
  else some (short, bytes)

/-- A payload with its mask put on or taken off. -/
def mask (key payload : Bytes) : Bytes :=
  payload.zipIdx.map fun (b, i) => b ^^^ key.getD (i % 4) 0

/-- Reads what stands behind the first two bytes of a client's frame: mask and payload. -/
def readBody (masked : Bool) (length : Nat) (bytes : Bytes) : Option (Bytes × Bytes) := do
  let (key, rest) ← if masked then takeExactly? 4 bytes else some ([], bytes)
  let (payload, rest) ← takeExactly? length rest
  return (mask key payload, rest)

/-- Reads the first frame of what a client sent so far, if all of it is there. -/
def read (limit : Nat) : Bytes → Except Fault (Option (Frame × Bytes))
  | first :: second :: bytes =>
    match Opcode.ofNumber? (first &&& 0x0f), readLength second bytes with
    | none, _ => .error .violation
    | some _, none => .ok none
    | some opcode, some (length, bytes) =>
      let masked := second &&& 0x80 != 0
      let final := first &&& 0x80 != 0
      if limit < length then .error .tooBig
      else match readBody masked length bytes with
        | none => .ok none
        | some (payload, rest) =>
          if first &&& 0x70 ≠ 0 ∨ !masked ∨ opcode.isControl ∧ (!final ∨ 125 < length) then
            .error .violation
          else .ok (some (⟨final, opcode, payload⟩, rest))
  | _ => .ok none

theorem mask_mask (key payload : Bytes) : mask key (mask key payload) = payload := by
  apply List.ext_getElem
  · simp [mask]
  · intro i h₁ h₂
    simp only [mask, List.getElem_map, List.getElem_zipIdx, Nat.zero_add]
    rw [UInt8.xor_assoc, UInt8.xor_self, UInt8.xor_zero]

end Frame

end Rendezvous.WebSocket
