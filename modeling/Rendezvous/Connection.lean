import Rendezvous.Relay.Jobs

/-!
What a relay does about what it reads on a connection, and how a connection is left.
-/

namespace Rendezvous

/-- Something that is read on a connection. -/
inductive Incoming where
  | binary (data : Bytes)
  | text
  | ping (data : Bytes)
  | pong
  /-- The client sent a close frame. -/
  | closed
  /-- The client went away, or cannot be understood any more. -/
  | gone
  /-- A message exceeds the size limit. -/
  | tooBig
  /-- The client broke the rules of the transport. -/
  | violation
  /-- The time for the handshake is over. -/
  | deadline
  deriving DecidableEq

/-- Why reading on a connection ended. -/
inductive ReadEnd where
  /-- The client left. -/
  | clientLeft
  /-- The writer was asked to close the connection. -/
  | closing
  deriving DecidableEq, Repr

namespace Relay

/-- Does what is due about something that was read, and tells whether reading goes on. -/
def react (r : Relay) (id : ClientId) : Incoming → Option ReadEnd × Relay
  | .binary data =>
    match r.received id data with
    | (.ok (), r) => (none, r)
    | (.error e, r) => (some .closing, r.fail id e)
  | .text => (some .closing, r.close id .protocolError)
  | .ping _ | .pong => (none, r)
  | .closed | .gone => (some .clientLeft, r)
  | .tooBig => (some .closing, r.close id .messageTooBig)
  | .violation => (some .closing, r.close id .protocolError)
  | .deadline =>
    if (r.client? id).any Client.isAuthenticated then (none, r)
    else (some .closing, r.close id .timeout)

/-- Greets a client that was just accepted, and tells whether it is to be read from. -/
def welcome (r : Relay) (id : ClientId) : Option ReadEnd × Relay :=
  match r.sendServerHello id with
  | (.ok (), r) => (none, r)
  | (.error e, r) => (some .closing, r.fail id e)

/-- Leaves a connection on which reading ended. -/
def leave (r : Relay) (id : ClientId) (e : ReadEnd) : Relay :=
  let r := (r.disconnected id).2
  match e with
  | .clientLeft => r.close id .normal
  | .closing => r

end Relay

end Rendezvous
