import Rendezvous.Client.Handshake
import Rendezvous.JobQueue.Basic

/-!
The relay: what it offers, its paths, its clients, and the jobs that it put off. A client's handlers
change that client alone; what they cause for others is left in the others' inboxes, and a job to
deliver it is dispatched.
-/

namespace Rendezvous

/-- What a relay counts. -/
structure Metrics where
  connections : UInt64
  /-- Clients that finished the handshake. -/
  authenticated : UInt64
  /-- Frames passed on between clients. -/
  relayedMessages : UInt64
  /-- Bytes passed on between clients. -/
  relayedBytes : UInt64
  /-- Connections that were ended for a protocol error. -/
  protocolErrors : UInt64
  droppedResponders : UInt64
  /-- Frames that could not be passed on. -/
  sendErrors : UInt64
  deriving DecidableEq

namespace Metrics

def zero : Metrics := ⟨0, 0, 0, 0, 0, 0, 0⟩

/-- The counters as they are shown in descriptions. -/
def describe (m : Metrics) : String :=
  Text.record "RelayMetrics" [("connections_total", toString m.connections.toNat),
    ("authenticated_total", toString m.authenticated.toNat),
    ("relayed_messages", toString m.relayedMessages.toNat),
    ("relayed_bytes", toString m.relayedBytes.toNat),
    ("protocol_errors", toString m.protocolErrors.toNat),
    ("dropped_responders", toString m.droppedResponders.toNat),
    ("send_errors", toString m.sendErrors.toNat)]

end Metrics

/-- Something that a relay put off. -/
inductive Job where
  /-- Give an admitted client its address and send it the server's answer. -/
  | answer (client : ClientId)
  /-- Deliver the inbox of a client. -/
  | deliver (client : ClientId)
  deriving DecidableEq

def Job.isAnswer : Job → Bool
  | .answer _ => true
  | .deliver _ => false

/-- A relay with all its clients. -/
structure Relay where
  service : Service
  metrics : Metrics
  /-- The number for the next connection. -/
  nextConnection : Nat
  registry : Registry ClientId
  clients : Array Client
  jobs : JobQueue Job

namespace Relay

def new (service : Service) : Relay := ⟨service, .zero, 1, .empty, #[], .empty⟩

/-- The relay as it is shown in descriptions. -/
def describe (r : Relay) : String :=
  Text.partialRecord "Relay" [
    ("subprotocols", Text.bracketed (r.service.subprotocols.map Text.quoted)),
    ("permanent_keys", toString r.service.permanentKeys.length),
    ("paths", toString r.registry.size), ("metrics", r.metrics.describe)]

/-! ### Clients and paths -/

def client? (r : Relay) (id : ClientId) : Option Client :=
  r.clients[id.index]?

def modifyClient (r : Relay) (id : ClientId) (f : Client → Client) : Relay :=
  { r with clients := r.clients.modify id.index f }

def setClient (r : Relay) (id : ClientId) (c : Client) : Relay :=
  r.modifyClient id fun _ => c

/-- Who has which address on a path. -/
def slots (r : Relay) (path : PathId) : Slots ClientId :=
  match r.registry.path? path with
  | some p => p.slots
  | none => .empty

def setSlots (r : Relay) (path : PathId) (slots : Slots ClientId) : Relay :=
  { r with registry := r.registry.setSlots path slots }

def count (r : Relay) (f : Metrics → Metrics) : Relay :=
  { r with metrics := f r.metrics }

def dispatch (r : Relay) (job : Job) : Relay :=
  { r with jobs := r.jobs.dispatch job }

theorem client?_modifyClient (r : Relay) (id other : ClientId) (f : Client → Client) :
    (r.modifyClient id f).client? other =
      if id = other then (r.client? other).map f else r.client? other := by
  cases id; cases other
  simp [modifyClient, client?, Array.getElem?_modify]

theorem client?_setClient (r : Relay) (id other : ClientId) (c : Client) :
    (r.setClient id c).client? other =
      if id = other then (r.client? other).map (fun _ => c) else r.client? other :=
  client?_modifyClient ..

theorem slots_setSlots {r : Relay} {path : PathId} (s : Slots ClientId)
    (h : (r.registry.path? path).isSome) : (r.setSlots path s).slots path = s := by
  obtain ⟨p, hp⟩ := Option.isSome_iff_exists.mp h
  simp [slots, setSlots, Registry.path?_setSlots, hp]

theorem slots_setSlots_ne (r : Relay) {path other : PathId} (s : Slots ClientId)
    (h : path ≠ other) : (r.setSlots path s).slots other = r.slots other := by
  simp [slots, setSlots, Registry.path?_setSlots, h]

/-! ### Connections -/

/-- What is drawn at random for a connection. -/
structure Draw where
  session : KeyPair
  cookie : Cookie
  number : SequenceNumber
  deriving DecidableEq

/-- Takes a number for a connection, which is thereby counted. -/
def numberConnection (r : Relay) : Nat × Relay :=
  (r.nextConnection, { r with
    metrics := { r.metrics with connections := r.metrics.connections + 1 }
    nextConnection := r.nextConnection + 1 })

/-- Finds the path of a key, or creates it. -/
def pathFor (r : Relay) (key : PublicKey) : PathId × Relay :=
  let (path, registry) := r.registry.getOrCreate key
  (path, { r with registry := registry })

def accept (r : Relay) (key : PublicKey) (subprotocol : String) (draw : Draw) : ClientId × Relay :=
  let (path, r) := r.pathFor key
  let (number, r) := r.numberConnection
  let client : Client :=
    { connectionId := number
      subprotocol := subprotocol
      initiatorKey := key
      path := path
      session := draw.session
      cookie := draw.cookie
      nextNumber := draw.number
      expected := none
      phase := .fresh
      gone := false
      inbox := []
      outbox := .empty }
  (⟨r.clients.size⟩, { r with clients := r.clients.push client })

/-! ### Reaching clients -/

/-- Asks a client's writer to end the connection. -/
def close (r : Relay) (id : ClientId) (code : CloseCode) : Relay :=
  r.modifyClient id fun c => c.close code

/-- Ends a connection for an error. -/
def fail (r : Relay) (id : ClientId) (e : ProtocolError) : Relay :=
  -- It is counted if the client is to blame.
  let r :=
    if e.closeCode = .protocolError then
      r.count fun m => { m with protocolErrors := m.protocolErrors + 1 }
    else r
  r.close id e.closeCode

/-- Leaves a message in a client's inbox and puts its delivery off. -/
def notify (r : Relay) (id : ClientId) (m : Message) : Relay :=
  (r.modifyClient id fun c => { c with inbox := c.inbox ++ [.notice m] }).dispatch (.deliver id)

def notifyAll (r : Relay) (ids : List ClientId) (m : Message) : Relay :=
  ids.foldl (fun r id => r.notify id m) r

/-- Passes a frame on to a client, and tells whether the client has a writer. -/
def forward (r : Relay) (id : ClientId) (frame : Bytes) : Bool × Relay :=
  match r.client? id with
  | none => (false, r)
  | some c =>
    -- A frame must not overtake the notices that still wait to be packed.
    let c' := if c.inbox.isEmpty then c.push (.binary frame)
      else { c with inbox := c.inbox ++ [.relayed frame] }
    (c.outbox.isOpen, r.setClient id c')

end Relay

end Rendezvous
