import Rendezvous.Peer
import Rendezvous.Relay.Jobs

/-!
Scenarios: a relay with named connections and a peer at the far end of each. A scenario is driven
step by step; after a step the writers' items are collected and shown to the peers.
-/

namespace Rendezvous

/-- A connection of a scenario: the relay's client, the peer at the other end, and the frame that was
sent last, which is empty before the first. -/
structure Party where
  client : ClientId
  peer : Peer
  lastFrame : Bytes

/-- A relay and its named connections, in the order of their names. -/
structure Scenario where
  relay : Relay
  parties : List (String × Party)

/-- A frame that a peer is asked for. -/
inductive Draft where
  /-- A responder's introduction. -/
  | clientHello
  | clientAuth (subprotocols : List String) (pingInterval : UInt32) (yourKey : Option PublicKey)
  | dropResponder (id : Address) (reason : Option CloseCode)
  /-- A payload as it is. -/
  | plain (destination : Address) (payload : Bytes)
  /-- A text sealed for the server, by the peer or by another secret key. -/
  | boxed (destination : Address) (text : Bytes) (secret : Option SecretKey)
  /-- A frame that the peer has no part in. -/
  | verbatim (frame : Bytes)

/-- The frame of a draft, and the peer after it. -/
def Draft.write (p : Peer) : Draft → Except PeerError (Bytes × Peer)
  | .clientHello => p.clientHello
  | .clientAuth subprotocols ping key => p.clientAuth subprotocols ping key
  | .dropResponder id reason => p.dropResponder id reason
  | .plain destination payload => p.frame destination payload
  | .boxed destination text secret =>
    p.sealedFrame destination text (secret.getD p.keys.secretKey)
  | .verbatim frame => .ok (frame, p)

/-- How a frame is tampered with before it is sent: bits are flipped, then the frame is cut, then
bytes are added. -/
structure Tampering where
  flips : List (Nat × UInt8)
  cut : Option Nat
  append : Bytes

/-- The frame after it was tampered with. -/
def Tampering.apply (t : Tampering) (frame : Bytes) : Bytes :=
  let flipped := t.flips.foldl (fun bytes (i, bits) => bytes.modify i (· ^^^ bits)) frame
  let cut := match t.cut with
    | some n => flipped.take n
    | none => flipped
  cut ++ t.append

/-- What is done with a frame that arrives. -/
inductive Handling where
  /-- It is handled; a failure may be asked to end the connection. -/
  | receive (failing : Bool)
  /-- It is only checked and read. -/
  | unpack
  /-- It gets lost. -/
  | lose

/-- What came of a frame that arrived. -/
inductive Arrival where
  | handled (outcome : Outcome)
  | unpacked (message : Except ProtocolError Message)
  | lost

/-- An item that a writer took, and what the peer made of it if it is a frame. -/
structure Collected where
  item : Outbound
  seen : Option (Except PeerError Received × Peer)

namespace Scenario

def new (service : Service) : Scenario := ⟨.new service, []⟩

def party? (s : Scenario) (name : String) : Option Party :=
  s.parties.lookup name

/-- Puts a connection in its place among the others, where it takes the place of one of its name. -/
def place (name : String) (p : Party) : List (String × Party) → List (String × Party)
  | [] => [(name, p)]
  | (other, q) :: rest =>
    if name = other then (name, p) :: rest
    else if name < other then (name, p) :: (other, q) :: rest
    else (other, q) :: place name p rest

def setParty (s : Scenario) (name : String) (p : Party) : Scenario :=
  { s with parties := place name p s.parties }

/-- Opens a connection under a name. If the name was in use the writer of the other connection is
gone from then on, but its client stays where it is. -/
def connect (s : Scenario) (name : String) (key : PublicKey) (subprotocol : String)
    (draw : Relay.Draw) (peer : Peer) : ClientId × Scenario :=
  let (client, relay) := s.relay.accept key subprotocol draw
  let relay := match s.party? name with
    | some old => relay.modifyClient old.client fun c => { c with outbox := c.outbox.dropWriter }
    | none => relay
  (client, { s with relay := relay }.setParty name ⟨client, peer, []⟩)

/-- Lets a frame arrive at a client. -/
def arrive (s : Scenario) (client : ClientId) (frame : Bytes) : Handling → Arrival × Scenario
  | .receive failing =>
    match s.relay.received client frame with
    | (.ok (), relay) => (.handled (.ok ()), { s with relay := relay })
    | (.error e, relay) =>
      (.handled (.error e), { s with relay := if failing then relay.fail client e else relay })
  | .unpack =>
    match s.relay.client? client with
    | none => (.lost, s)
    | some c =>
      match c.unpack frame with
      | .ok (m, c) => (.unpacked (.ok m), { s with relay := s.relay.setClient client c })
      | .error e => (.unpacked (.error e), s)
  | .lose => (.lost, s)

/-- Has the peer of a connection write a frame, tampers with it and lets it arrive at a client. -/
def exchange (s : Scenario) (name : String) (p : Party) (draft : Draft) (t : Tampering)
    (target : ClientId) (handling : Handling) : Except PeerError (Bytes × Arrival × Scenario) := do
  let (frame, peer) ← draft.write p.peer
  let frame := t.apply frame
  let (arrival, s) := (s.setParty name ⟨p.client, peer, frame⟩).arrive target frame handling
  return (frame, arrival, s)

/-- Lets a client take as many responder addresses of its path as it is asked to, whether or not it is
authenticated. -/
def fill (s : Scenario) (client : ClientId) : Nat → List (Except SlotsFull Address) × Scenario
  | 0 => ([], s)
  | n + 1 =>
    match s.relay.client? client with
    | none => ([], s)
    | some c =>
      match (s.relay.slots c.path).add client with
      | .error e =>
        let (rest, s) := s.fill client n
        (.error e :: rest, s)
      | .ok (a, slots) =>
        let (rest, s) := { s with relay := s.relay.setSlots c.path slots }.fill client n
        (.ok a :: rest, s)

/-- Shows items to a peer in order. -/
def showAll (p : Peer) : List Outbound → List Collected × Peer
  | [] => ([], p)
  | .binary frame :: rest =>
    let (received, p) := p.receive frame
    let (others, last) := showAll p rest
    (⟨.binary frame, some (received, p)⟩ :: others, last)
  | item :: rest =>
    let (others, last) := showAll p rest
    (⟨item, none⟩ :: others, last)

/-- Collects what the writer of a connection took, and shows it to the peer. -/
def collectOne (r : Relay) (p : Party) : List Collected × Party × Relay :=
  match r.client? p.client with
  | none => ([], p, r)
  | some c =>
    let (items, outbox) := c.outbox.drain
    let (collected, peer) := showAll p.peer items
    (collected, { p with peer := peer }, r.setClient p.client { c with outbox := outbox })

/-- Collects what all writers took, in the order of the connections' names. -/
def collect (s : Scenario) : List (String × List Collected) × Scenario :=
  let next := fun (out, parties, relay) (name, p) =>
    let (collected, p, relay) := collectOne relay p
    (out ++ [(name, collected)], parties ++ [(name, p)], relay)
  let (out, parties, relay) := s.parties.foldl next ([], [], s.relay)
  (out, ⟨relay, parties⟩)

end Scenario

end Rendezvous
