import Rendezvous.Bytes.Hex

/-!
What can go wrong while frames, boxes, keys and payloads are read or written.
-/

namespace Rendezvous

/-- What is wrong with a payload field. -/
inductive FieldFault where
  /-- Its value is not acceptable. -/
  | invalidValue
  /-- It is not there. -/
  | missing
  deriving DecidableEq, Repr

def FieldFault.message : FieldFault → String
  | .invalidValue => "invalid field value"
  | .missing => "missing field"

/-- What is wrong with key material. -/
inductive KeyFault where
  /-- The text of a secret key is not hexadecimal. -/
  | secretNotHex (error : Hex.Error)
  /-- The text of a secret key holds this many bytes, and not 32. -/
  | secretSize (bytes : Nat)
  /-- The text of a public key has this many bytes, and not 64. -/
  | publicLength (bytes : Nat)
  /-- The text of a public key is not hexadecimal. -/
  | publicNotHex (error : Hex.Error)
  /-- Any other fault, given in words. -/
  | other (reason : String)
  deriving DecidableEq, Repr

def KeyFault.message : KeyFault → String
  | .secretNotHex e => "not hex: " ++ e.message
  | .secretSize n => "expected 32 bytes, got " ++ toString n
  | .publicLength n => "expected 64 hex characters, got " ++ toString n
  | .publicNotHex e => e.message
  | .other reason => reason

/-- Why a frame, a box, a key or a payload was refused. -/
inductive CodecError where
  /-- A frame needs a header and at least one byte of payload. -/
  | frameTooShort (size : Nat)
  /-- A header needs 24 bytes. -/
  | headerTooShort (size : Nat)
  /-- The sequence number has reached its last value. -/
  | overflowSentinel
  /-- A box did not open. -/
  | cannotDecrypt
  /-- A box could not be sealed. -/
  | cannotEncrypt
  /-- A payload could not be written. -/
  | serialization
  /-- A payload is not MessagePack of the expected shape. -/
  | deserialization
  /-- A field of a payload of the given message type is at fault. -/
  | payloadField (kind : String) (field : String) (fault : FieldFault)
  /-- A sealed message was packed before the key of its receiver was known. -/
  | missingClientKey
  /-- Key material is at fault. -/
  | invalidKey (fault : KeyFault)
  deriving DecidableEq, Repr

namespace CodecError

/-- The error of a field whose value is not acceptable. -/
def invalidField (kind field : String) : CodecError :=
  .payloadField kind field .invalidValue

/-- The error in words; the words of the payload format's own faults are not part of it. -/
def message : CodecError → String
  | .frameTooShort n => "frame too short: " ++ toString n ++ " bytes"
  | .headerTooShort n => "header too short: " ++ toString n ++ " bytes"
  | .overflowSentinel => "combined sequence number overflow sentinel reached"
  | .cannotDecrypt => "cannot decrypt payload"
  | .cannotEncrypt => "cannot encrypt payload"
  | .serialization => "serialization failed"
  | .deserialization => "deserialization failed"
  | .payloadField kind field fault => kind ++ ": field '" ++ field ++ "': " ++ fault.message
  | .missingClientKey => "client key required for encrypted message"
  | .invalidKey fault => "invalid key: " ++ fault.message

end CodecError

end Rendezvous
