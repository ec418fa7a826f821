import Rendezvous.Relay.Basic

/-!
The handshake of a client on its relay: the greeting, and the server's answer, which gives the
client its address and makes it known to the other side of the path.
-/

namespace Rendezvous

/-- Whether an operation succeeded, or why the connection has to end. -/
abbrev Outcome := Except ProtocolError Unit

namespace Relay

/-- Changes a client by an operation that may fail, in which case the client stays as it is. -/
def update (r : Relay) (id : ClientId) (f : Client → Except ProtocolError Client) :
    Outcome × Relay :=
  match r.client? id with
  | none => (.ok (), r)
  | some c =>
    match f c with
    | .ok c => (.ok (), r.setClient id c)
    | .error e => (.error e, r)

def sendServerHello (r : Relay) (id : ClientId) : Outcome × Relay :=
  r.update id Client.greet

/-- The path that a client is to join: its own, or the one that took its place if it was taken out of
the registry. -/
def livePath (r : Relay) (c : Client) : PathId × Relay :=
  match r.registry.path? c.path with
  -- A path is taken out when it is empty, while admitted clients may still be on their way to it.
  | some p => if p.orphan then r.pathFor c.initiatorKey else (c.path, r)
  | none => (c.path, r)

/-- An address that was given to a client, and who had it before. -/
structure Seat where
  address : Address
  displaced : Option ClientId

/-- Gives a client its address: the initiator's, whoever has it, or a free responder address. -/
def seat (r : Relay) (path : PathId) (id : ClientId) : Role → Except ProtocolError (Seat × Relay)
  | .initiator =>
    let (displaced, slots) := (r.slots path).setInitiator id
    .ok (⟨.initiator, displaced⟩, r.setSlots path slots)
  | .responder =>
    match (r.slots path).add id with
    | .ok (address, slots) => .ok (⟨address, none⟩, r.setSlots path slots)
    | .error _ => .error .pathFull

/-- Frees an address if the client has it, and tells whether it had. -/
def vacate (r : Relay) (path : PathId) (address : Address) (id : ClientId) : Bool × Relay :=
  let (removed, slots) := (r.slots path).removeIf address (· == id)
  (removed.isSome, r.setSlots path slots)

/-- What a client of the given role is told about the other side of its path. -/
def otherSide (r : Relay) (path : PathId) : Role → OtherSide
  | .initiator => .responders (r.slots path).responderIds
  | .responder => .initiator (r.slots path).initiator.isSome

/-- Tells the other side of a path about someone of the given role: all responders about an
initiator, the initiator about a responder. -/
def announce (r : Relay) (path : PathId) (role : Role) (m : Message) : Relay :=
  match role with
  | .initiator => r.notifyAll ((r.slots path).responders.map Prod.snd) m
  | .responder => r.notifyAll (r.slots path).initiator.toList m

/-- The message by which others learn of someone who joined. -/
def joined : Role → Address → Message
  | .initiator, _ => .newInitiator
  | .responder, address => .newResponder address

/-- Ends the connection of an initiator who lost its address to another one. -/
def displace (r : Relay) (id : ClientId) (displaced : Option ClientId) : Relay :=
  match displaced with
  | some other => if other = id then r else r.close other .dropByInitiator
  | none => r

/-- A client after the server's answer: it has its address, and its pings are set up. -/
def seated (c : Client) (a : Admission) (address : Address) (frame : Bytes) : Client :=
  let c := { c with phase := .seated a address }.push (.binary frame)
  if a.pingInterval = 0 then c else c.push (.keepAlive a.pingInterval.toNat)

/-- Gives an admitted client its address, answers it, and tells the other side of its path. -/
def answer (r : Relay) (id : ClientId) (c : Client) (a : Admission) (cookie : Cookie) :
    Outcome × Relay :=
  let (path, r) := r.livePath c
  let c := { c with path := path }
  let r := r.setClient id c
  match r.seat path id a.role with
  | .error e => (.error e, r)
  | .ok (s, r) =>
    match c.pack s.address (.serverAuth ⟨cookie, r.otherSide path a.role⟩) with
    -- Without an answer the client does not keep the address; but who had it before has lost it.
    | .error e => (.error e, (r.vacate path s.address id).2)
    | .ok (frame, c) =>
      let r := r.setClient id (seated c a s.address frame)
      let r := r.announce path a.role (joined a.role s.address)
      let r := r.count fun m => { m with authenticated := m.authenticated + 1 }
      (.ok (), r.displace id s.displaced)

/-- Sends the server's answer to a client that proved itself. -/
def sendServerAuth (r : Relay) (id : ClientId) : Outcome × Relay :=
  match r.client? id with
  | none => (.ok (), r)
  | some c =>
    -- The answer was put off, and the client may have left in the meantime.
    if c.gone then (.ok (), r)
    else match c.phase, c.expected with
      | .admitted a, some e => r.answer id c a e.cookie
      | .admitted _, none => (.error .cookieNotEchoed, r)
      | _, _ => (.error (c.unexpected .serverAuth), r)

end Relay

end Rendezvous
