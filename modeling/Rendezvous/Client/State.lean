import Rendezvous.Client.Handshake

/-!
The state of a client as loose fields. Where a `Client` has a phase, which holds exactly what is known in
it, here stage, role, address and keys are fields of their own, and so are the cookie of the client's frames
and the number of its next one. Each operation reads the fields that it asks about and writes the ones that
it settles; that they fit together is not a matter of types.
-/

namespace Rendezvous

/-- One connection that speaks the protocol, field by field. -/
structure ClientState where
  connectionId : Nat
  /-- The subprotocol that was agreed upon when the connection was opened. -/
  subprotocol : String
  /-- The key that names the client's path. -/
  initiatorKey : PublicKey
  path : PathId
  /-- How far the handshake got. -/
  handshake : Stage
  /-- The client's address, which is the server's until there is one. -/
  id : Address
  role : Option Role
  /-- Whether the server's answer was sent. -/
  authenticated : Bool
  clientKey : Option PublicKey
  /-- The server's key pair for this connection. -/
  session : KeyPair
  /-- The server's permanent key that the client expects. -/
  permanent : Option KeyPair
  /-- The cookie of the server's frames. -/
  cookieOut : Cookie
  /-- The cookie of the client's frames, once there was one. -/
  cookieIn : Option Cookie
  /-- The sequence number of the server's next frame. -/
  numberOut : SequenceNumber
  /-- The sequence number of the client's next frame, once there was one. -/
  numberIn : Option SequenceNumber
  /-- How often to ping, in seconds; zero for not at all. -/
  pingInterval : UInt32
  /-- Whether the connection was torn down. -/
  gone : Bool
  /-- What other clients want delivered, the oldest first. -/
  inbox : List Delivery
  outbox : Outbox

/-- What an accepted frame changes: its cookie is kept if it was the first, and its number is counted. -/
structure PendingCommit where
  cookieIn : Option Cookie
  numberIn : Option SequenceNumber

namespace ClientState

def push (st : ClientState) (item : Outbound) : ClientState :=
  { st with outbox := st.outbox.push item }

def close (st : ClientState) (code : CloseCode) : ClientState :=
  st.push (.close code)

/-! ### Frames from the client -/

/-- Whether a frame from this client may go to an address of the given kind other than the server. -/
def mayReach (st : ClientState) (kind : AddressKind) : Bool :=
  st.authenticated && st.role.any fun role => role.addressKind ≠ kind

/-- Checks the cookie of a frame to the server, and gives it if it is to be kept. -/
def checkCookie (st : ClientState) (h : Header) : Except ProtocolError (Option Cookie) :=
  match st.cookieIn with
  | none => if h.cookie = st.cookieOut then throw .cookieReflected else return some h.cookie
  | some cookie => if cookie ≠ h.cookie then throw .cookieMismatch else return none

/-- Checks the sequence number of a frame to the server. -/
def checkNumber (st : ClientState) (h : Header) : Except ProtocolError SequenceNumber :=
  match st.numberIn with
  | none => if h.number.overflow ≠ 0 then throw .invalidOverflowNumber else return h.number
  | some expected => do
    if expected.isSentinel then throw (.overflowSentinel .inbound)
    if h.number ≠ expected then throw (.notExpectedNumber expected h.number)
    return expected

/-- Checks cookie and sequence number of a frame to the server, and gives what is to change once the frame
is accepted. -/
def checkHeader (st : ClientState) (h : Header) : Except ProtocolError PendingCommit := do
  let cookie ← st.checkCookie h
  let number ← st.checkNumber h
  return ⟨cookie, some (← ofCodec number.next)⟩

def commit (st : ClientState) (pending : PendingCommit) : ClientState :=
  { st with
    cookieIn := pending.cookieIn <|> st.cookieIn
    numberIn := pending.numberIn <|> st.numberIn }

/-- Opens a payload and reads its message. -/
def openSealed (st : ClientState) (f : Frame) : Except ProtocolError Message := do
  let key := st.clientKey.getD st.initiatorKey
  let plain ← ofCodec (Box.decrypt key st.session.secretKey f.header.nonce f.payload)
  ofCodec (Message.read plain)

/-- Reads the message of a frame to the server. -/
def openPayload (st : ClientState) (f : Frame) : Except ProtocolError Message :=
  -- A responder introduces itself in plain; an initiator's proof is sealed.
  if st.handshake = .serverHello ∧ st.role.isNone then
    match Message.read f.payload with
    | .ok (.clientHello key) => .ok (.clientHello key)
    | _ => st.openSealed f
  else st.openSealed f

/-- Checks and reads a frame. -/
def unpack (st : ClientState) (bytes : Bytes) : Except ProtocolError (Message × ClientState) := do
  let f ← ofCodec (Frame.parse bytes)
  let h := f.header
  let kind := h.destination.kind
  if kind ≠ .server ∧ ¬ st.mayReach kind then throw (.notAllowed h.source h.destination)
  if h.source ≠ st.id then throw (.notMatchedIdentities st.id h.source)
  if kind ≠ .server then return (.raw h bytes, st)
  else
    let pending ← st.checkHeader h
    let message ← st.openPayload f
    return (message, st.commit pending)

/-! ### Frames to the client -/

/-- Packs a message into the server's next frame. -/
def pack (st : ClientState) (destination : Address) (m : Message) :
    Except ProtocolError (Bytes × ClientState) := do
  if st.numberOut.isSentinel then throw (.overflowSentinel .outbound)
  let header ← ofCodec (Header.mk st.cookieOut .server destination st.numberOut).toOctets
  let payload ← ofCodec (m.payload ⟨st.clientKey, st.session, st.permanent, header⟩)
  let next ← ofCodec st.numberOut.next
  return (header.toList ++ payload, { st with numberOut := next })

/-- Packs a message for an authenticated client and queues it. -/
def send (st : ClientState) (m : Message) : Except ProtocolError ClientState := do
  if ¬ st.authenticated then throw .notAuthenticated
  let (frame, st) ← st.pack st.id m
  return st.push (.binary frame)

/-- Delivers what waits in the inbox, in order. -/
def deliverAll (st : ClientState) : List Delivery → Option ProtocolError × ClientState
  | [] => (none, { st with inbox := [] })
  | .relayed frame :: rest => (st.push (.binary frame)).deliverAll rest
  | .notice m :: rest =>
    match st.send m with
    | .ok st => st.deliverAll rest
    | .error e => (some e, { st with inbox := [] })

def deliverInbox (st : ClientState) : Option ProtocolError × ClientState :=
  st.deliverAll st.inbox

/-! ### The handshake -/

/-- The error of a message that does not belong into the client's stage. -/
def unexpected (st : ClientState) (t : MessageType) : ProtocolError :=
  .unexpectedMessage t st.handshake

def greet (st : ClientState) : Except ProtocolError ClientState := do
  if st.handshake ≠ .none then throw (st.unexpected .serverHello)
  let (frame, st) ← st.pack .server (.serverHello st.session.publicKey)
  return { st with handshake := .serverHello }.push (.binary frame)

def introduce (st : ClientState) (key : PublicKey) : Except ProtocolError ClientState := do
  if st.role.isSome ∨ st.handshake ≠ .serverHello then throw (st.unexpected .clientHello)
  return { st with clientKey := some key, role := some .responder, handshake := .clientHello }

/-- The role of a client that proves itself. -/
def claimedRole (st : ClientState) : Except ProtocolError Role :=
  match st.handshake, st.role with
  | .serverHello, none => return .initiator
  | .clientHello, some .responder => return .responder
  | _, _ => throw (st.unexpected .clientAuth)

/-- Admits a client that proved itself. -/
def authorize (st : ClientState) (service : Service) (auth : ClientAuth) :
    Except ProtocolError ClientState := do
  let role ← st.claimedRole
  if auth.yourCookie ≠ st.cookieOut then throw .cookieNotEchoed
  if auth.subprotocols.find? service.speaks ≠ some st.subprotocol then throw .subprotocolMismatch
  let permanent ← service.keyFor auth.yourKey
  return { st with
    -- A responder gave its key before.
    clientKey := if role = .initiator then some st.initiatorKey else st.clientKey
    role := some role
    permanent := some permanent
    pingInterval := auth.pingInterval
    handshake := .clientAuth }

/-- A client after the server's answer: it has its address, and its pings are set up. -/
def seated (st : ClientState) (address : Address) (frame : Bytes) : ClientState :=
  let st := { st with id := address, authenticated := true, handshake := .serverAuth }.push
    (.binary frame)
  if 0 < st.pingInterval then st.push (.keepAlive st.pingInterval.toNat) else st

end ClientState

end Rendezvous
