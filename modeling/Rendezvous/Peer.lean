import Rendezvous.Entropy
import Rendezvous.Message.Reading
import Rendezvous.Message.Writing

/-!
A peer: the other end of a client's connection. It writes the frames that a client of the protocol
would send, and reads what the server sends back: it checks that the server keeps its cookie and
counts its frames, opens the boxes, and passes over frames of other clients.
-/

namespace Rendezvous

/-- Why a peer cannot write a frame, or cannot read one. -/
inductive PeerError where
  /-- The frame, its box or its payload is at fault. -/
  | codec (error : CodecError)
  /-- The server was not heard of yet. -/
  | noServerHello
  /-- The peer has no sequence number left. -/
  | numbersExhausted
  /-- The server changed its cookie. -/
  | serverCookieChanged
  /-- The server's sequence number is not the next one. -/
  | serverNumberSkipped
  deriving DecidableEq

/-- What a peer made of a frame. -/
inductive Received where
  /-- A message of the server. -/
  | message (message : Message)
  /-- The server's answer, with the box that vouches for its key and the nonce of both. -/
  | answer (auth : ServerAuth) (signedKeys : Option Bytes) (nonce : Nonce)
  /-- A frame of another client. -/
  | relayed (frame : Bytes)
  deriving DecidableEq

/-- The other end of a client's connection. -/
structure Peer where
  keys : KeyPair
  cookie : Cookie
  /-- The sequence number of the next frame. -/
  number : SequenceNumber
  /-- The peer's address, which it learns from the server's answer. -/
  id : Address
  serverCookie : Option Cookie
  /-- The sequence number that the server's next frame has to carry. -/
  serverNumber : Option SequenceNumber
  /-- The server's session key. -/
  serverKey : Option PublicKey
  deriving DecidableEq

namespace Peer

/-- A peer that neither sent nor received anything. -/
def new (keys : KeyPair) (cookie : Cookie) (number : SequenceNumber) : Peer :=
  ⟨keys, cookie, number, .server, none, none, none⟩

/-! ### Writing -/

/-- The header of the next frame, for which the sequence number is used up. -/
def nextHeader (p : Peer) (destination : Address) : Except PeerError (Header × Peer) :=
  match p.number.next with
  | .ok next => .ok (⟨p.cookie, p.id, destination, p.number⟩, { p with number := next })
  | .error _ => .error .numbersExhausted

/-- The next frame, around a payload that depends on its nonce. -/
def frameWith (p : Peer) (destination : Address) (payload : Nonce → Except CodecError Bytes) :
    Except PeerError (Bytes × Peer) := do
  let (header, p) ← p.nextHeader destination
  let payload ← (payload header.nonce).mapError .codec
  let bytes ← (Frame.mk header payload).toBytes.mapError .codec
  return (bytes, p)

def frame (p : Peer) (destination : Address) (payload : Bytes) : Except PeerError (Bytes × Peer) :=
  p.frameWith destination fun _ => .ok payload

/-- The server's session key, if the server was heard of. -/
def heardServer (p : Peer) : Except PeerError PublicKey :=
  match p.serverKey with
  | some key => .ok key
  | none => .error .noServerHello

/-- A frame with the given text, sealed for the server. -/
def sealedFrame (p : Peer) (destination : Address) (plain : Bytes) (secret : SecretKey) :
    Except PeerError (Bytes × Peer) := do
  let key ← p.heardServer
  p.frameWith destination fun nonce => .ok (Box.encrypt key secret nonce plain)

/-- A frame to the server with the given message. -/
def messageFrame (p : Peer) (m : Message) : Except PeerError (Bytes × Peer) := do
  let key ← if m.isSealed then some <$> p.heardServer else pure none
  p.frameWith .server fun nonce => m.payload ⟨key, p.keys, none, nonce⟩

def clientHello (p : Peer) : Except PeerError (Bytes × Peer) :=
  p.messageFrame (.clientHello p.keys.publicKey)

/-- The proof that the peer knows the server's session. -/
def clientAuth (p : Peer) (subprotocols : List String) (pingInterval : UInt32)
    (yourKey : Option PublicKey) : Except PeerError (Bytes × Peer) :=
  match p.serverCookie with
  | some cookie => p.messageFrame (.clientAuth ⟨cookie, subprotocols, pingInterval, yourKey⟩)
  | none => .error .noServerHello

/-- An initiator's wish to have a responder dropped. -/
def dropResponder (p : Peer) (id : Address) (reason : Option CloseCode) :
    Except PeerError (Bytes × Peer) :=
  p.messageFrame (.dropResponder id reason)

/-! ### Reading -/

/-- Checks cookie and sequence number of a frame of the server. The cookie is noted before the number
is looked at. -/
def acceptHeader (p : Peer) (h : Header) : Except PeerError Unit × Peer :=
  if p.serverCookie.any (· ≠ h.cookie) then (.error .serverCookieChanged, p)
  else
    let p := { p with serverCookie := some h.cookie }
    if p.serverNumber.any (· ≠ h.number) then (.error .serverNumberSkipped, p)
    else match h.number.next with
      | .ok next => (.ok (), { p with serverNumber := some next })
      | .error e => (.error (.codec e), p)

/-- Reads a payload of the server once its session key is known. -/
def readSealed (p : Peer) (key : PublicKey) (f : Frame) : Except CodecError Received := do
  let nonce := f.header.nonce
  let plain ← Box.decrypt key p.keys.secretKey nonce f.payload
  let name ← payloadKind plain
  match MessageType.all.find? (·.name == name) with
  | some .serverAuth =>
    let (auth, signed) ← ServerAuth.read plain
    return .answer auth signed nonce
  | some .newInitiator => .message <$> MessageType.newInitiator.read plain
  | some .newResponder => .message <$> MessageType.newResponder.read plain
  | some .disconnected => .message <$> MessageType.disconnected.read plain
  | some .sendError => .message <$> MessageType.sendError.read plain
  | _ => throw (.invalidField name "type")

/-- The peer after what it received: it notes the server's session key and its own address. -/
def note (p : Peer) (h : Header) : Received → Peer
  | .message (.serverHello key) => { p with serverKey := some key }
  | .answer .. => { p with id := h.destination }
  | _ => p

/-- Reads the payload of a frame of the server. The first one introduces the session key, in plain. -/
def readPayload (p : Peer) (f : Frame) : Except CodecError Received :=
  match p.serverKey with
  | none => .message <$> MessageType.serverHello.read f.payload
  | some key => p.readSealed key f

def receive (p : Peer) (bytes : Bytes) : Except PeerError Received × Peer :=
  match Frame.parse bytes with
  | .error e => (.error (.codec e), p)
  | .ok f =>
    if f.header.source ≠ .server then (.ok (.relayed bytes), p)
    else match p.acceptHeader f.header with
      | (.error e, p) => (.error e, p)
      | (.ok (), p) =>
        match p.readPayload f with
        | .error e => (.error (.codec e), p)
        | .ok received => (.ok received, p.note f.header received)

/-- Whether a box shows that the server's session key belongs to the holder of a permanent key: it
has to hold that session key and the peer's own key. -/
def verifySignedKeys (p : Peer) (permanent : PublicKey) (nonce : Nonce) (signed : Bytes) : Bool :=
  match p.serverKey, Box.decrypt permanent p.keys.secretKey nonce signed with
  | some key, .ok plain => plain == key.bytes ++ p.keys.publicKey.bytes
  | _, _ => false

end Peer

end Rendezvous
