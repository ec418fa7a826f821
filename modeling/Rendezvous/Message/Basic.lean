import Rendezvous.CloseCode
import Rendezvous.Box.Keys
import Rendezvous.Frame

/-!
The messages of the signalling protocol.
-/

namespace Rendezvous

/-- The kinds of messages that have a payload of their own. -/
inductive MessageType where
  | serverHello
  | clientHello
  | clientAuth
  | serverAuth
  | newInitiator
  | newResponder
  | dropResponder
  | sendError
  | disconnected
  deriving DecidableEq, Repr

namespace MessageType

/-- The name that a payload gives in its `type` field. -/
def name : MessageType → String
  | .serverHello => "server-hello"
  | .clientHello => "client-hello"
  | .clientAuth => "client-auth"
  | .serverAuth => "server-auth"
  | .newInitiator => "new-initiator"
  | .newResponder => "new-responder"
  | .dropResponder => "drop-responder"
  | .sendError => "send-error"
  | .disconnected => "disconnected"

/-- The fields of a payload, in order. -/
def fields : MessageType → List String
  | .serverHello | .clientHello => ["type", "key"]
  | .clientAuth => ["type", "your_cookie", "subprotocols", "ping_interval", "your_key"]
  | .serverAuth => ["type", "your_cookie", "signed_keys", "initiator_connected", "responders"]
  | .newInitiator => ["type"]
  | .newResponder | .disconnected | .sendError => ["type", "id"]
  | .dropResponder => ["type", "id", "reason"]

def all : List MessageType :=
  [.serverHello, .clientHello, .clientAuth, .serverAuth, .newInitiator, .newResponder,
    .dropResponder, .sendError, .disconnected]

/-- The kinds that a payload from a client is read as. -/
def fromClients : List MessageType :=
  [.serverHello, .clientHello, .clientAuth, .newInitiator, .newResponder, .dropResponder]

/-- Whether the payload of such a message is sealed. The two hellos come before the keys are
known. -/
def isSealed : MessageType → Bool
  | .serverHello | .clientHello => false
  | _ => true

theorem name_inj {s t : MessageType} : s.name = t.name ↔ s = t := by
  revert s t
  have all : ∀ s ∈ all, ∀ t ∈ all, s.name = t.name ↔ s = t := by decide
  intro s t
  exact all s (by cases s <;> decide) t (by cases t <;> decide)

end MessageType

/-- What a client says to prove that it knows the server's session: the cookie echoed, the
subprotocols it would speak in order of preference, and the permanent key it expects. -/
structure ClientAuth where
  yourCookie : Cookie
  subprotocols : List String
  /-- How often to ping, in seconds; zero for not at all. -/
  pingInterval : UInt32
  yourKey : Option PublicKey
  deriving DecidableEq

/-- What a client is told about the other side of its path. -/
inductive OtherSide where
  /-- For the initiator: the responders that are there. -/
  | responders (addresses : List Address)
  /-- For a responder: whether an initiator is there. -/
  | initiator (connected : Bool)
  deriving DecidableEq

/-- The server's answer to a client that proved itself. -/
structure ServerAuth where
  yourCookie : Cookie
  otherSide : OtherSide
  deriving DecidableEq

/-- Any message that the relay handles. -/
inductive Message where
  /-- The server's session key. -/
  | serverHello (key : PublicKey)
  /-- The key of a responder. -/
  | clientHello (key : PublicKey)
  | clientAuth (auth : ClientAuth)
  | serverAuth (auth : ServerAuth)
  /-- An initiator joined. -/
  | newInitiator
  /-- A responder joined. -/
  | newResponder (id : Address)
  /-- The initiator wants a responder gone. -/
  | dropResponder (id : Address) (reason : Option CloseCode)
  /-- A frame could not be handed on. -/
  | sendError (id : FrameId)
  /-- The client at an address left. -/
  | disconnected (id : Address)
  /-- A frame from one client to another, of which only the header is read. -/
  | raw (header : Header) (frame : Bytes)
  deriving DecidableEq

namespace Message

/-- The kind of a message, except for a frame from one client to another. -/
def type? : Message → Option MessageType
  | .serverHello _ => some .serverHello
  | .clientHello _ => some .clientHello
  | .clientAuth _ => some .clientAuth
  | .serverAuth _ => some .serverAuth
  | .newInitiator => some .newInitiator
  | .newResponder _ => some .newResponder
  | .dropResponder .. => some .dropResponder
  | .sendError _ => some .sendError
  | .disconnected _ => some .disconnected
  | .raw .. => none

/-- The name of a message's kind. -/
def kind (m : Message) : String :=
  match m.type? with
  | some t => t.name
  | none => "raw"

end Message

end Rendezvous
