import Rendezvous.Scenario
import Rendezvous.Server.Basic
import Rendezvous.WebSocket.Assembly

/-!
Visits to a server: named visitors on the same machine open connections, send frames and read what the
server sent. A visitor has a peer, which writes its frames and makes sense of the server's.
-/

namespace Rendezvous

/-- Somebody who opened a connection: the server's client, unless the connection was closed again at once;
the peer; and what was sent and not read yet. -/
structure Visitor where
  client : Option ClientId
  peer : Peer
  unread : List Sent

/-- A server, its network, and its visitors by name. -/
structure Visit where
  network : Network
  server : Server
  visitors : List (String × Visitor)

/-- Something that a visitor reads, and what its peer made of it if it is a frame. -/
structure Glimpse where
  sent : Sent
  seen : Option (Except PeerError Received × Peer)

namespace Visit

def visitor? (v : Visit) (name : String) : Option Visitor :=
  v.visitors.lookup name

def setVisitor (v : Visit) (name : String) (x : Visitor) : Visit :=
  { v with visitors := (name, x) :: v.visitors.filter (·.1 ≠ name) }

/-- Requests a connection, which fails if the network does not carry it to the server. -/
def request (v : Visit) (name : String) (q : UpgradeRequest) (draw : Relay.Draw) (peer : Peer) :
    Option (Server.Opening × Visit) :=
  if v.network.connects v.server.address then
    let (opening, server) := v.server.request q draw
    let v := { v with server := server }
    some (opening, match opening with
      | .rejected => v
      | .unshared => v.setVisitor name ⟨none, peer, Server.unsharedSent⟩
      | .opened id _ => v.setVisitor name ⟨some id, peer, []⟩)
  else none

/-- Has the server read something on the connection of a visitor. -/
def bring (v : Visit) (x : Visitor) (m : Incoming) : Visit :=
  match x.client with
  | some id => { v with server := v.server.receive id m }
  | none => v

/-- Has the peer of a visitor write a frame, tampers with it and sends it. -/
def send (v : Visit) (name : String) (x : Visitor) (draft : Draft) (t : Tampering) :
    Except PeerError Visit := do
  let (frame, peer) ← draft.write x.peer
  let x := { x with peer := peer }
  return (v.setVisitor name x).bring x (.binary (t.apply frame))

/-- Sends a message as the transport carries it, whatever its opcode and its size. -/
def sendRaw (v : Visit) (x : Visitor) (opcode : UInt8) (data : Bytes) : Visit :=
  let limit := v.server.configuration.limits.maxMessageSize.toNat
  let bytes := WebSocket.Frame.writeForClient (0x80 ||| opcode) data
  let (ms, _, _) := WebSocket.Assembly.read limit .empty bytes
  ms.foldl (fun v m => v.bring x m) v

/-- Shows what was sent to a visitor, at most so many items of it. Requests to send pings are not seen. -/
def showTo : Nat → Peer → List Sent → List Glimpse × Peer × List Sent
  | 0, p, rest => ([], p, rest)
  | _ + 1, p, [] => ([], p, [])
  | n + 1, p, .keepAlive _ :: rest => showTo (n + 1) p rest
  | n + 1, p, .binary frame :: rest =>
    let (received, p) := p.receive frame
    let (others, last, rest) := showTo n p rest
    (⟨.binary frame, some (received, p)⟩ :: others, last, rest)
  | n + 1, p, item :: rest =>
    let (others, last, rest) := showTo n p rest
    (⟨item, none⟩ :: others, last, rest)

/-- Has a visitor read at most so many items. -/
def read (v : Visit) (name : String) (x : Visitor) (count : Nat) : List Glimpse × Visit :=
  let (fetched, server) := match x.client with
    | some id => v.server.fetch id
    | none => ([], v.server)
  let (glimpses, peer, unread) := showTo count x.peer (x.unread ++ fetched)
  (glimpses, { v with server := server }.setVisitor name { x with peer := peer, unread := unread })

end Visit

end Rendezvous
