import Rendezvous.Message.Basic

/-!
What ends a connection: a violation of the protocol, or a failure of the relay, and the close code
that tells the client about it.
-/

namespace Rendezvous

/-- How far a client's handshake got. -/
inductive Stage where
  /-- Nothing was sent yet. -/
  | none
  /-- The server introduced its session key. -/
  | serverHello
  /-- A responder introduced its key. -/
  | clientHello
  /-- The client proved itself, and the server's answer is due. -/
  | clientAuth
  /-- The server answered, and the client is authenticated. -/
  | serverAuth
  deriving DecidableEq, Repr

namespace Stage

/-- The name of a stage: the message that was sent last. -/
def text : Stage → String
  | .none => "none"
  | .serverHello => "server-hello"
  | .clientHello => "client-hello"
  | .clientAuth => "client-auth"
  | .serverAuth => "server-auth"

/-- The place of a stage in the handshake. -/
def index : Stage → Nat
  | .none => 0
  | .serverHello => 1
  | .clientHello => 2
  | .clientAuth => 3
  | .serverAuth => 4

end Stage

/-- The direction of a sequence of frames. -/
inductive Direction where
  /-- From the client. -/
  | inbound
  /-- To the client. -/
  | outbound
  deriving DecidableEq, Repr

def Direction.text : Direction → String
  | .inbound => "inbound"
  | .outbound => "outbound"

/-- Why a connection has to end. -/
inductive ProtocolError where
  /-- A frame, a box or a payload is at fault. -/
  | codec (error : CodecError)
  /-- The client may not send to this destination. -/
  | notAllowed (source destination : Address)
  /-- The source of a frame is not the address of the client. -/
  | notMatchedIdentities (expected actual : Address)
  /-- The client took the server's cookie for its own. -/
  | cookieReflected
  /-- The client changed its cookie. -/
  | cookieMismatch
  /-- The client did not repeat the server's cookie. -/
  | cookieNotEchoed
  /-- The first sequence number has wrapped before. -/
  | invalidOverflowNumber
  /-- The sequence number is not the next one. -/
  | notExpectedNumber (expected actual : SequenceNumber)
  /-- No sequence number is left in this direction. -/
  | overflowSentinel (direction : Direction)
  /-- The message does not belong into this stage of the handshake. -/
  | unexpectedMessage (type : MessageType) (stage : Stage)
  /-- Only an authenticated client can be sent messages. -/
  | notAuthenticated
  /-- Only an initiator may send this message. -/
  | notInitiator (type : MessageType)
  /-- The first subprotocol that both sides speak is not the one agreed upon. -/
  | subprotocolMismatch
  /-- The server has not the permanent key that the client expects. -/
  | invalidPermanentKey
  /-- The server has no permanent key at all. -/
  | noPermanentKey
  /-- All responder addresses of the path are taken. -/
  | pathFull
  /-- A responder left a path on which no initiator could be told. -/
  | noInitiator
  deriving DecidableEq

namespace ProtocolError

def message : ProtocolError → String
  | .codec e => e.message
  | .notAllowed source destination =>
    "message from " ++ source.text ++ " to " ++ destination.text ++ " not allowed"
  | .notMatchedIdentities expected actual =>
    "identities do not match: expected " ++ expected.text ++ ", got " ++ actual.text
  | .cookieReflected => "client reflected the server cookie"
  | .cookieMismatch => "cookie changed within the connection"
  | .cookieNotEchoed => "client did not echo the server cookie"
  | .invalidOverflowNumber => "initial overflow number must be zero"
  | .notExpectedNumber expected actual =>
    "unexpected csn: expected " ++ expected.text ++ ", got " ++ actual.text
  | .overflowSentinel d =>
    d.text ++ " csn overflow sentinel reached, cannot exchange any more messages"
  | .unexpectedMessage type stage => "unexpected " ++ type.name ++ " in state " ++ stage.text
  | .notAuthenticated => "client is not authenticated"
  | .notInitiator type => "only the initiator may send " ++ type.name
  | .subprotocolMismatch => "subprotocol mismatch"
  | .invalidPermanentKey => "requested permanent key is unknown"
  | .noPermanentKey => "no permanent key configured"
  | .pathFull => "path is full"
  | .noInitiator => "no initiator on path to notify"

/-- The close code that ends the connection. What is not the server's own failure, a full path, an
unknown key or a missing subprotocol is a protocol error. -/
def closeCode : ProtocolError → CloseCode
  | .pathFull => .pathFull
  | .invalidPermanentKey | .noPermanentKey => .invalidKey
  | .subprotocolMismatch => .subprotocolError
  | .codec .cannotEncrypt | .codec .serialization => .internalError
  | _ => .protocolError

end ProtocolError

/-- What was read or written, where a failure ends the connection. -/
def ofCodec (result : Except CodecError α) : Except ProtocolError α :=
  result.mapError .codec

end Rendezvous
