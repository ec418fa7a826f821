import Rendezvous.Configuration.Basic
import Rendezvous.Connection
import Rendezvous.Server.Network
import Rendezvous.Upgrade
import Rendezvous.WorkerPool.Basic

/-!
The server: a relay with its connections. A connection is read from until its client leaves or is asked
to; what the relay has for a client is sent, up to a close frame, behind which nothing is sent.
Main statement: a server starts only with a configuration that passes all checks
(`validate_of_start_eq_ok`).
-/

namespace Rendezvous

/-- Why a server cannot start. -/
inductive StartError where
  | invalid (setting : InvalidSetting)
  /-- There is no listening on the address. -/
  | address
  /-- There is no pool of the size. -/
  | pool
  deriving DecidableEq, Repr

/-- Something that was sent to a client. -/
inductive Sent where
  | binary (frame : Bytes)
  | close (code : CloseCode)
  | pong (data : Bytes)
  /-- Pings are to be sent from now on, every so many seconds. -/
  | keepAlive (seconds : Nat)
  /-- The server closed the stream. -/
  | endOfStream
  deriving DecidableEq

/-- A connection: its client, what was sent on it and not fetched yet, and in which directions it is
open. -/
structure Link where
  client : ClientId
  sent : List Sent
  reading : Bool
  writing : Bool
  deriving DecidableEq

def Link.opened (client : ClientId) : Link := ⟨client, [], true, true⟩

/-- A running server. -/
structure Server where
  configuration : Configuration
  address : ListenAddress
  pool : WorkerPool
  relay : Relay
  links : List Link

namespace Server

/-- Starts a server with permanent keys, if the configuration allows it and the network lets it listen on
its address. -/
def start (network : Network) (c : Configuration) (keys : List KeyPair) : Except StartError Server :=
  match c.validate, ListenAddress.ofText? c.server.bindAddress, WorkerPool.ofSettings? c.workers with
  | .error e, _, _ => .error (.invalid e)
  | .ok (), none, _ => .error .address
  | .ok (), some address, pool =>
    if network.listens address then
      match pool with
      | none => .error .pool
      | some pool => .ok ⟨c, address, pool, .new ⟨c.server.subprotocols, keys⟩, []⟩
    else .error .address

theorem validate_of_start_eq_ok {network : Network} {c : Configuration} {keys : List KeyPair}
    {s : Server} (h : start network c keys = .ok s) : c.validate = .ok () := by
  unfold start at h
  split at h <;> simp_all

def link? (s : Server) (id : ClientId) : Option Link :=
  s.links.find? (·.client == id)

def modifyLink (s : Server) (id : ClientId) (f : Link → Link) : Server :=
  { s with links := s.links.map fun l => if l.client = id then f l else l }

/-- What a writer sends of the items that it takes, and whether it goes on then. -/
def written : List Outbound → List Sent × Bool
  | [] => ([], true)
  | .binary frame :: rest =>
    let (sent, goesOn) := written rest
    (.binary frame :: sent, goesOn)
  | .keepAlive seconds :: rest =>
    let (sent, goesOn) := written rest
    (.keepAlive seconds :: sent, goesOn)
  | .close code :: _ => ([.close code, .endOfStream], false)

/-- Has the writer of a connection send what there is for it. One that ended leaves its outbox. -/
def flushLink (s : Server) (l : Link) : Server :=
  match l.writing, s.relay.client? l.client with
  | true, some c =>
    let (items, outbox) := c.outbox.drain
    let (sent, writing) := written items
    let outbox := if writing then outbox else outbox.dropWriter
    let s := { s with relay := s.relay.setClient l.client { c with outbox := outbox } }
    s.modifyLink l.client fun l => { l with sent := l.sent ++ sent, writing := writing }
  | _, _ => s

/-- Runs what was put off, and has all writers send. -/
def flush (s : Server) : Server :=
  let s := { s with relay := s.relay.runPending.2 }
  s.links.foldl flushLink s

/-- Leaves the connections that are still read from though nothing is sent on them any more, at most so
many times; what that causes for others is sent too. -/
def settleWithin : Nat → Server → Server
  | 0, s => s.flush
  | n + 1, s =>
    let s := s.flush
    match s.links.find? fun l => l.reading && !l.writing with
    | none => s
    | some l =>
      let s := s.modifyLink l.client fun l => { l with reading := false }
      settleWithin n { s with relay := s.relay.leave l.client .closing }

/-- Does all that can be done without reading. Each connection is left once. -/
def settle (s : Server) : Server :=
  settleWithin s.links.length s

/-- Ends the reading on a connection, if there is a reason to. To a client that left nothing is sent any
more. -/
def endReading (s : Server) (id : ClientId) : Option ReadEnd → Server
  | none => s
  | some .closing =>
    let s := { s with relay := s.relay.leave id .closing }
    s.modifyLink id fun l => { l with reading := false }
  | some .clientLeft =>
    let relay := (s.relay.leave id .clientLeft).modifyClient id fun c =>
      { c with outbox := c.outbox.dropWriter }
    let s := { s with relay := relay }
    s.modifyLink id fun l =>
      { l with sent := l.sent ++ [.endOfStream], reading := false, writing := false }

/-- Opens a connection and greets its client. -/
def connect (s : Server) (key : PublicKey) (subprotocol : String) (draw : Relay.Draw) :
    ClientId × Server :=
  let (id, relay) := s.relay.accept key subprotocol draw
  let (e, relay) := relay.welcome id
  let s := { s with relay := relay, links := s.links ++ [Link.opened id] }
  (id, (s.endReading id e).settle)

/-- What a client sees of its request. -/
inductive Opening where
  /-- It is answered with an error. -/
  | rejected
  /-- The connection is opened and closed again, because no subprotocol is shared. -/
  | unshared
  | opened (client : ClientId) (subprotocol : String)
  deriving DecidableEq

def request (s : Server) (q : UpgradeRequest) (draw : Relay.Draw) : Opening × Server :=
  match Upgrade.decide s.relay.service q with
  | .rejected => (.rejected, s)
  | .accepted _ none => (.unshared, s)
  | .accepted key (some subprotocol) =>
    let (id, s) := s.connect key subprotocol draw
    (.opened id subprotocol, s)

/-- What is sent on a connection that is closed again because no subprotocol is shared. -/
def unsharedSent : List Sent := [.close .subprotocolError, .endOfStream]

/-- Does what is due about something that was read on a connection. -/
def receive (s : Server) (id : ClientId) (m : Incoming) : Server :=
  match s.link? id with
  | some l =>
    if l.reading then
      let pongs := match m with
        | .ping data => [Sent.pong data]
        | _ => []
      let (e, relay) := s.relay.react id m
      let s := { s with relay := relay }
      let s := s.modifyLink id fun l => { l with sent := l.sent ++ pongs }
      (s.endReading id e).settle
    else s
  | none => s

/-- Fetches what was sent on a connection. -/
def fetch (s : Server) (id : ClientId) : List Sent × Server :=
  match s.link? id with
  | some l => (l.sent, s.modifyLink id fun l => { l with sent := [] })
  | none => ([], s)

end Server

end Rendezvous
