import Rendezvous.Client.State
import Rendezvous.Relay.Jobs

/-!
A relay whose clients are states of loose fields. Paths, jobs and counters are those of a `Relay`; the
handlers are written once more, over the fields.
-/

namespace Rendezvous

/-- A relay with all its clients, each of them field by field. -/
structure RelayState where
  service : Service
  metrics : Metrics
  /-- The number for the next connection. -/
  nextConnection : Nat
  registry : Registry ClientId
  clients : Array ClientState
  jobs : JobQueue Job

namespace RelayState

def new (service : Service) : RelayState := ⟨service, .zero, 1, .empty, #[], .empty⟩

/-! ### Clients and paths -/

def client? (r : RelayState) (id : ClientId) : Option ClientState :=
  r.clients[id.index]?

def modifyClient (r : RelayState) (id : ClientId) (f : ClientState → ClientState) : RelayState :=
  { r with clients := r.clients.modify id.index f }

def setClient (r : RelayState) (id : ClientId) (st : ClientState) : RelayState :=
  r.modifyClient id fun _ => st

/-- Changes a client by an operation that may fail, in which case the client stays as it is. -/
def update (r : RelayState) (id : ClientId) (f : ClientState → Except ProtocolError ClientState) :
    Outcome × RelayState :=
  match r.client? id with
  | none => (.ok (), r)
  | some st =>
    match f st with
    | .ok st => (.ok (), r.setClient id st)
    | .error e => (.error e, r)

/-- Who has which address on a path. -/
def slots (r : RelayState) (path : PathId) : Slots ClientId :=
  match r.registry.path? path with
  | some p => p.slots
  | none => .empty

def setSlots (r : RelayState) (path : PathId) (slots : Slots ClientId) : RelayState :=
  { r with registry := r.registry.setSlots path slots }

def count (r : RelayState) (f : Metrics → Metrics) : RelayState :=
  { r with metrics := f r.metrics }

def dispatch (r : RelayState) (job : Job) : RelayState :=
  { r with jobs := r.jobs.dispatch job }

/-- Finds the path of a key, or creates it. -/
def pathFor (r : RelayState) (key : PublicKey) : PathId × RelayState :=
  let (path, registry) := r.registry.getOrCreate key
  (path, { r with registry := registry })

/-- Takes a number for a connection, which is thereby counted. -/
def numberConnection (r : RelayState) : Nat × RelayState :=
  (r.nextConnection, { r with
    metrics := { r.metrics with connections := r.metrics.connections + 1 }
    nextConnection := r.nextConnection + 1 })

def accept (r : RelayState) (key : PublicKey) (subprotocol : String) (draw : Relay.Draw) :
    ClientId × RelayState :=
  let (path, r) := r.pathFor key
  let (number, r) := r.numberConnection
  let st : ClientState :=
    { connectionId := number
      subprotocol := subprotocol
      initiatorKey := key
      path := path
      handshake := .none
      id := .server
      role := none
      authenticated := false
      clientKey := none
      session := draw.session
      permanent := none
      cookieOut := draw.cookie
      cookieIn := none
      numberOut := draw.number
      numberIn := none
      pingInterval := 0
      gone := false
      inbox := []
      outbox := .empty }
  (⟨r.clients.size⟩, { r with clients := r.clients.push st })

/-! ### Reaching clients -/

/-- Asks a client's writer to end the connection. -/
def close (r : RelayState) (id : ClientId) (code : CloseCode) : RelayState :=
  r.modifyClient id fun st => st.close code

/-- Ends a connection for an error. -/
def fail (r : RelayState) (id : ClientId) (e : ProtocolError) : RelayState :=
  let r :=
    if e.closeCode = .protocolError then
      r.count fun m => { m with protocolErrors := m.protocolErrors + 1 }
    else r
  r.close id e.closeCode

/-- Leaves a message in a client's inbox and puts its delivery off. -/
def notify (r : RelayState) (id : ClientId) (m : Message) : RelayState :=
  (r.modifyClient id fun st => { st with inbox := st.inbox ++ [.notice m] }).dispatch (.deliver id)

def notifyAll (r : RelayState) (ids : List ClientId) (m : Message) : RelayState :=
  ids.foldl (fun r id => r.notify id m) r

/-- Passes a frame on to a client, and tells whether the client has a writer. -/
def forward (r : RelayState) (id : ClientId) (frame : Bytes) : Bool × RelayState :=
  match r.client? id with
  | none => (false, r)
  | some st =>
    let st' := if st.inbox.isEmpty then st.push (.binary frame)
      else { st with inbox := st.inbox ++ [.relayed frame] }
    (st.outbox.isOpen, r.setClient id st')

/-! ### The server's answer -/

/-- The path that a client is to join: its own, or the one that took its place. -/
def livePath (r : RelayState) (st : ClientState) : PathId × RelayState :=
  match r.registry.path? st.path with
  | some p => if p.orphan then r.pathFor st.initiatorKey else (st.path, r)
  | none => (st.path, r)

/-- Gives a client its address: the initiator's, whoever has it, or a free responder address. -/
def seat (r : RelayState) (path : PathId) (id : ClientId) :
    Role → Except ProtocolError (Relay.Seat × RelayState)
  | .initiator =>
    let (displaced, slots) := (r.slots path).setInitiator id
    .ok (⟨.initiator, displaced⟩, r.setSlots path slots)
  | .responder =>
    match (r.slots path).add id with
    | .ok (address, slots) => .ok (⟨address, none⟩, r.setSlots path slots)
    | .error _ => .error .pathFull

/-- Frees an address if the client has it, and tells whether it had. -/
def vacate (r : RelayState) (path : PathId) (address : Address) (id : ClientId) : Bool × RelayState :=
  let (removed, slots) := (r.slots path).removeIf address (· == id)
  (removed.isSome, r.setSlots path slots)

/-- What a client of the given role is told about the other side of its path. -/
def otherSide (r : RelayState) (path : PathId) : Role → OtherSide
  | .initiator => .responders (r.slots path).responderIds
  | .responder => .initiator (r.slots path).initiator.isSome

/-- Tells the other side of a path about someone of the given role. -/
def announce (r : RelayState) (path : PathId) (role : Role) (m : Message) : RelayState :=
  match role with
  | .initiator => r.notifyAll ((r.slots path).responders.map Prod.snd) m
  | .responder => r.notifyAll (r.slots path).initiator.toList m

/-- Ends the connection of an initiator who lost its address to another one. -/
def displace (r : RelayState) (id : ClientId) (displaced : Option ClientId) : RelayState :=
  match displaced with
  | some other => if other = id then r else r.close other .dropByInitiator
  | none => r

/-- Gives a client its address, answers it, and tells the other side of its path. -/
def answer (r : RelayState) (id : ClientId) (st : ClientState) (role : Role) (cookie : Cookie) :
    Outcome × RelayState :=
  let (path, r) := r.livePath st
  let st := { st with path := path }
  let r := r.setClient id st
  match r.seat path id role with
  | .error e => (.error e, r)
  | .ok (s, r) =>
    match st.pack s.address (.serverAuth ⟨cookie, r.otherSide path role⟩) with
    | .error e => (.error e, (r.vacate path s.address id).2)
    | .ok (frame, st) =>
      let r := r.setClient id (st.seated s.address frame)
      let r := r.announce path role (Relay.joined role s.address)
      let r := r.count fun m => { m with authenticated := m.authenticated + 1 }
      (.ok (), r.displace id s.displaced)

/-- Sends the server's answer to a client that proved itself. -/
def sendServerAuth (r : RelayState) (id : ClientId) : Outcome × RelayState :=
  match r.client? id with
  | none => (.ok (), r)
  | some st =>
    if st.gone then (.ok (), r)
    else if st.handshake ≠ .clientAuth then (.error (st.unexpected .serverAuth), r)
    else
      -- Both should be known by now.
      match st.role, st.cookieIn with
      | none, _ => (.error (st.unexpected .serverAuth), r)
      | some _, none => (.error .cookieNotEchoed, r)
      | some role, some cookie => r.answer id st role cookie

/-! ### Frames of clients -/

/-- Admits a client and puts the server's answer off. -/
def handleClientAuth (r : RelayState) (id : ClientId) (auth : ClientAuth) : Outcome × RelayState :=
  match r.update id fun st => st.authorize r.service auth with
  | (.ok (), r) => (.ok (), r.dispatch (.answer id))
  | failed => failed

/-- Drops a responder on behalf of its initiator. -/
def handleDropResponder (r : RelayState) (st : ClientState) (responder : Address)
    (reason : Option CloseCode) : Outcome × RelayState :=
  if ¬ st.authenticated ∨ st.role ≠ some .initiator then (.error (.notInitiator .dropResponder), r)
  else
    let (removed, slots) := (r.slots st.path).del responder
    let r := r.setSlots st.path slots
    match removed with
    | some other =>
      let r := r.close other (reason.getD .dropByInitiator)
      (.ok (), r.count fun m => { m with droppedResponders := m.droppedResponders + 1 })
    | none => (.ok (), r)

/-- Passes a frame on to whoever has its destination, and tells whether it did. -/
def passOn (r : RelayState) (path : PathId) (h : Header) (frame : Bytes) : Bool × RelayState :=
  match (r.slots path).get h.destination with
  | some peer => r.forward peer frame
  | none => (false, r)

/-- Tells a client that a frame could not be passed on. -/
def refuse (r : RelayState) (id : ClientId) (h : Header) : Outcome × RelayState :=
  match r.update id fun st => do
      let (reply, st) ← st.pack st.id (.sendError h.frameId)
      return st.push (.binary reply) with
  | (.ok (), r) => (.ok (), r.count fun m => { m with sendErrors := m.sendErrors + 1 })
  | failed => failed

/-- Handles a frame to another client. -/
def handleRaw (r : RelayState) (id : ClientId) (st : ClientState) (h : Header) (frame : Bytes) :
    Outcome × RelayState :=
  if (r.slots st.path).get st.id = some id then
    match r.passOn st.path h frame with
    | (true, r) =>
      (.ok (), r.count fun m => { m with
        relayedMessages := m.relayedMessages + 1
        relayedBytes := m.relayedBytes + UInt64.ofNat frame.length })
    | (false, r) => r.refuse id h
  else (.ok (), r)

def handle (r : RelayState) (id : ClientId) (st : ClientState) : Message → Outcome × RelayState
  | .clientHello key => r.update id fun st => st.introduce key
  | .clientAuth auth => r.handleClientAuth id auth
  | .dropResponder responder reason => r.handleDropResponder st responder reason
  | .raw h frame => r.handleRaw id st h frame
  | _ => (.ok (), r)

def received (r : RelayState) (id : ClientId) (frame : Bytes) : Outcome × RelayState :=
  match r.client? id with
  | none => (.ok (), r)
  | some st =>
    match st.unpack frame with
    | .error e => (.error e, r)
    | .ok (m, st) => (r.setClient id st).handle id st m

/-- Tears a connection down. -/
def disconnected (r : RelayState) (id : ClientId) : Outcome × RelayState :=
  match r.client? id with
  | none => (.ok (), r)
  | some st =>
    let r := r.setClient id { st with gone := true }
    let (removed, r) := if st.authenticated then r.vacate st.path st.id id else (false, r)
    let r := { r with registry := (r.registry.prune st.path).2 }
    match removed, st.role with
    | true, some .initiator => (.ok (), r.announce st.path .initiator (.disconnected st.id))
    | true, some .responder =>
      match (r.slots st.path).initiator with
      | some _ => (.ok (), r.announce st.path .responder (.disconnected st.id))
      | none => (.error .noInitiator, r)
    | _, _ => (.ok (), r)

/-! ### Jobs -/

/-- Runs a job. A failure ends the connection that the job is for. -/
def runJob (r : RelayState) : Job → RelayState
  | .answer id =>
    match r.sendServerAuth id with
    | (.ok (), r) => r
    | (.error e, r) => r.fail id e
  | .deliver id =>
    match r.client? id with
    | none => r
    | some st =>
      match st.deliverInbox with
      | (none, st) => r.setClient id st
      | (some e, st) => (r.setClient id st).fail id e

end RelayState

end Rendezvous
