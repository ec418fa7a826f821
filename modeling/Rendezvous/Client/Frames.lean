import Rendezvous.Client.Basic
import Rendezvous.Message.Reading
import Rendezvous.Message.Writing

/-!
The frames of a client: what is accepted from it (`unpack`), and what the server sends to it
(`pack`). A frame that is refused leaves the client as it was.
-/

namespace Rendezvous.Client

/-! ### Frames from the client -/

/-- Whether a frame from this client may go to an address of the given kind other than the server:
an authenticated client may reach the other side of its path. -/
def mayReach (c : Client) (kind : AddressKind) : Bool :=
  c.isAuthenticated && c.role?.any fun role => role.addressKind ≠ kind

/-- Checks cookie and sequence number of a frame to the server, and gives what the frame after it
has to carry. -/
def acceptHeader (c : Client) (h : Header) : Except ProtocolError Expectation :=
  match c.expected with
  -- The first frame settles the cookie; it may start with any number that has not wrapped.
  | none => do
    if h.cookie = c.cookie then throw .cookieReflected
    if h.number.overflow ≠ 0 then throw .invalidOverflowNumber
    return ⟨h.cookie, ← ofCodec h.number.next⟩
  | some e => do
    if h.cookie ≠ e.cookie then throw .cookieMismatch
    if e.number.isSentinel then throw (.overflowSentinel .inbound)
    if h.number ≠ e.number then throw (.notExpectedNumber e.number h.number)
    return ⟨e.cookie, ← ofCodec e.number.next⟩

/-- The key under which the client seals: its own, or the one that names its path as long as its own
is not known. -/
def peerKey (c : Client) : PublicKey :=
  c.phase.clientKey?.getD c.initiatorKey

/-- Opens a payload and reads its message. -/
def openSealed (c : Client) (f : Frame) : Except ProtocolError Message := do
  let plain ← ofCodec (Box.decrypt c.peerKey c.session.secretKey f.header.nonce f.payload)
  ofCodec (Message.read plain)

/-- Reads the message of a frame to the server. -/
def openPayload (c : Client) (f : Frame) : Except ProtocolError Message :=
  -- Right after the greeting a responder introduces itself in plain; all else is sealed.
  match c.phase, Message.read f.payload with
  | .greeted, .ok (.clientHello key) => .ok (.clientHello key)
  | _, _ => c.openSealed f

/-- Checks and reads a frame. -/
def unpack (c : Client) (bytes : Bytes) : Except ProtocolError (Message × Client) := do
  let f ← ofCodec (Frame.parse bytes)
  let h := f.header
  let toServer := h.destination = .server
  if ¬ toServer ∧ ¬ c.mayReach h.destination.kind then throw (.notAllowed h.source h.destination)
  if h.source ≠ c.id then throw (.notMatchedIdentities c.id h.source)
  if toServer then
    let next ← c.acceptHeader h
    let message ← c.openPayload f
    return (message, { c with expected := some next })
  -- A frame to another client is not read, and does not count.
  else return (.raw h bytes, c)

/-! ### Frames to the client -/

def nextHeader (c : Client) (destination : Address) : Header :=
  ⟨c.cookie, .server, destination, c.nextNumber⟩

/-- What is used to seal a payload for the client. -/
def sealing (c : Client) (nonce : Nonce) : Sealing :=
  ⟨c.phase.clientKey?, c.session, c.phase.permanent?, nonce⟩

/-- Packs a message into the server's next frame. -/
def pack (c : Client) (destination : Address) (m : Message) :
    Except ProtocolError (Bytes × Client) := do
  if c.nextNumber.isSentinel then throw (.overflowSentinel .outbound)
  let header ← ofCodec (c.nextHeader destination).toOctets
  let payload ← ofCodec (m.payload (c.sealing header))
  let next ← ofCodec c.nextNumber.next
  return (header.toList ++ payload, { c with nextNumber := next })

/-- Packs a message for an authenticated client and queues it. -/
def send (c : Client) (m : Message) : Except ProtocolError Client := do
  if ¬ c.isAuthenticated then throw .notAuthenticated
  let (frame, c) ← c.pack c.id m
  return c.push (.binary frame)

/-- Delivers what waits in the inbox, in order. -/
def deliverAll (c : Client) : List Delivery → Option ProtocolError × Client
  | [] => (none, { c with inbox := [] })
  | .relayed frame :: rest => (c.push (.binary frame)).deliverAll rest
  | .notice m :: rest =>
    match c.send m with
    | .ok c => c.deliverAll rest
    -- The connection is to end, and what is left is dropped.
    | .error e => (some e, { c with inbox := [] })

def deliverInbox (c : Client) : Option ProtocolError × Client :=
  c.deliverAll c.inbox

end Rendezvous.Client
