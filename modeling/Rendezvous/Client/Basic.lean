import Rendezvous.Outbox
import Rendezvous.Path.Registry
import Rendezvous.ProtocolError

/-!
A client: one connection and how far it got in the handshake. The phase of a client holds exactly
what is known in it, so that role, key and address are functions of the phase.
-/

namespace Rendezvous

/-- What was settled when a client proved itself. -/
structure Admission where
  role : Role
  /-- The client's public key; an initiator's is the key of its path. -/
  clientKey : PublicKey
  /-- The server's permanent key that the client expects. -/
  permanent : KeyPair
  /-- How often to ping, in seconds; zero for not at all. -/
  pingInterval : UInt32
  deriving DecidableEq

/-- A client's part of the handshake.

An initiator goes from `greeted` to `admitted` at once; a responder introduces its key before. -/
inductive Phase where
  /-- Nothing was sent yet. -/
  | fresh
  /-- The server introduced its session key. -/
  | greeted
  /-- A responder introduced its key. -/
  | introduced (key : PublicKey)
  /-- The client proved itself, and the server's answer is due. -/
  | admitted (admission : Admission)
  /-- The client has an address on its path. -/
  | seated (admission : Admission) (id : Address)
  deriving DecidableEq

namespace Phase

def stage : Phase → Stage
  | .fresh => .none
  | .greeted => .serverHello
  | .introduced _ => .clientHello
  | .admitted _ => .clientAuth
  | .seated .. => .serverAuth

def admission? : Phase → Option Admission
  | .admitted a => some a
  | .seated a _ => some a
  | _ => none

def role? : Phase → Option Role
  | .introduced _ => some .responder
  | p => p.admission?.map Admission.role

def clientKey? : Phase → Option PublicKey
  | .introduced key => some key
  | p => p.admission?.map Admission.clientKey

def permanent? (p : Phase) : Option KeyPair :=
  p.admission?.map Admission.permanent

def id : Phase → Address
  | .seated _ id => id
  -- A client without an address of its own uses the server's.
  | _ => .server

def isAuthenticated : Phase → Bool
  | .seated .. => true
  | _ => false

end Phase

/-- What the next frame from a client has to carry. -/
structure Expectation where
  cookie : Cookie
  number : SequenceNumber
  deriving DecidableEq

/-- Something that another client wants to have delivered. -/
inductive Delivery where
  /-- A message of the server, to be packed when it is delivered. -/
  | notice (message : Message)
  /-- A frame of a client, to be passed on as it is. -/
  | relayed (frame : Bytes)
  deriving DecidableEq

/-- The name of a client within its relay: its place among all clients. -/
structure ClientId where
  index : Nat
  deriving DecidableEq, Repr

/-- One connection that speaks the protocol. -/
structure Client where
  connectionId : Nat
  /-- The subprotocol that was agreed upon when the connection was opened. -/
  subprotocol : String
  /-- The key that names the client's path. -/
  initiatorKey : PublicKey
  path : PathId
  /-- The server's key pair for this connection. -/
  session : KeyPair
  /-- The cookie of the server's frames. -/
  cookie : Cookie
  /-- The sequence number of the server's next frame. -/
  nextNumber : SequenceNumber
  /-- What the next frame has to carry, once there was a frame. -/
  expected : Option Expectation
  phase : Phase
  /-- Whether the connection was torn down. -/
  gone : Bool
  /-- What other clients want delivered, the oldest first. -/
  inbox : List Delivery
  outbox : Outbox

namespace Client

def stage (c : Client) : Stage := c.phase.stage

def id (c : Client) : Address := c.phase.id

def role? (c : Client) : Option Role := c.phase.role?

def isAuthenticated (c : Client) : Bool := c.phase.isAuthenticated

def push (c : Client) (item : Outbound) : Client :=
  { c with outbox := c.outbox.push item }

def close (c : Client) (code : CloseCode) : Client :=
  c.push (.close code)

def describeRole : Option Role → String
  | none => "None"
  | some .initiator => "Some(Initiator)"
  | some .responder => "Some(Responder)"

def describeStage : Stage → String
  | .none => "None"
  | .serverHello => "ServerHello"
  | .clientHello => "ClientHello"
  | .clientAuth => "ClientAuth"
  | .serverAuth => "ServerAuth"

/-- The client as it is shown in descriptions, with the number of its path. -/
def describe (c : Client) (pathNumber : Nat) : String :=
  Text.partialRecord "Client" [("connection_id", toString c.connectionId),
    ("path", toString pathNumber), ("id", c.id.describe), ("role", describeRole c.role?),
    ("state", describeStage c.stage)]

end Client

end Rendezvous
