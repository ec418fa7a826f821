import Rendezvous.Address
import Rendezvous.Cookie
import Rendezvous.SequenceNumber

/-!
Frames: a header of 24 bytes and a payload of at least one. The header is also the nonce under
which the payload is sealed.
-/

namespace Rendezvous

/-- The nonce of a box. -/
abbrev Nonce := Octets 24

/-- The part of a nonce that names a frame on its path: source, destination, sequence number. -/
abbrev FrameId := Octets 8

/-- The header of a frame. -/
structure Header where
  /-- The cookie of the sender. -/
  cookie : Cookie
  source : Address
  destination : Address
  /-- The sender's sequence number. -/
  number : SequenceNumber
  deriving DecidableEq

namespace Header

/-- The bytes of a header around those of its sequence number. -/
def layout (h : Header) (number : Octets 6) : Octets 24 :=
  (h.cookie.octets.append ⟨[h.source.value, h.destination.value], rfl⟩).append number

/-- The nonce for the payload, which also exists where the sequence number is the sentinel: what
arrives is always checked against the bytes that were sent. -/
def nonce (h : Header) : Nonce :=
  h.layout h.number.layout

/-- The header to send, which fails where the sequence number is the sentinel. -/
def toOctets (h : Header) : Except CodecError (Octets 24) := do
  let number ← h.number.toOctets
  return h.layout number

/-- The name of the frame that starts with this header. -/
def frameId (h : Header) : FrameId :=
  h.nonce.drop 16

/-- A header starts with its cookie. -/
theorem cookie_le : 16 ≤ 24 := by decide

/-- The header that lies in 24 bytes. -/
def ofOctets (bytes : Octets 24) : Header where
  cookie := ⟨bytes.take 16 cookie_le⟩
  source := ⟨bytes.toList.getD 16 0⟩
  destination := ⟨bytes.toList.getD 17 0⟩
  number := SequenceNumber.ofOctets (bytes.drop 18)

/-- The header at the start of a byte string. -/
def parse (bytes : Bytes) : Except CodecError Header :=
  match Octets.ofList? (bytes.take 24) with
  | some octets => .ok (ofOctets octets)
  | none => .error (.headerTooShort bytes.length)

/-- The header as it is shown in descriptions. -/
def describe (h : Header) : String :=
  Text.record "Header" [("cookie", h.cookie.describe), ("source", h.source.describe),
    ("destination", h.destination.describe), ("csn", h.number.describe)]

end Header

/-- A header and the payload behind it. -/
structure Frame where
  header : Header
  payload : Bytes
  deriving DecidableEq

namespace Frame

/-- Splits a byte string into header and payload. -/
def parse (bytes : Bytes) : Except CodecError Frame :=
  if bytes.length < 25 then .error (.frameTooShort bytes.length)
  else do
    let header ← Header.parse bytes
    return ⟨header, bytes.drop 24⟩

/-- The bytes of a frame, unless its sequence number is the sentinel. -/
def toBytes (f : Frame) : Except CodecError Bytes := do
  let header ← f.header.toOctets
  return header.toList ++ f.payload

end Frame

end Rendezvous
