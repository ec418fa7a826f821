import Rendezvous.Relay.Handshake

/-!
What a client's frames do: steps of the handshake, dropping a responder, and frames to the other
side of the path.
-/

namespace Rendezvous.Relay

/-- Admits a client and puts the server's answer off. -/
def handleClientAuth (r : Relay) (id : ClientId) (auth : ClientAuth) : Outcome × Relay :=
  match r.update id fun c => c.authorize r.service auth with
  | (.ok (), r) => (.ok (), r.dispatch (.answer id))
  | failed => failed

/-- Drops a responder on behalf of its initiator. -/
def handleDropResponder (r : Relay) (c : Client) (responder : Address) (reason : Option CloseCode) :
    Outcome × Relay :=
  if c.isAuthenticated && c.role? == some .initiator then
    let (removed, slots) := (r.slots c.path).del responder
    let r := r.setSlots c.path slots
    match removed with
    | some other =>
      let r := r.close other (reason.getD .dropByInitiator)
      (.ok (), r.count fun m => { m with droppedResponders := m.droppedResponders + 1 })
    | none => (.ok (), r)
  else (.error (.notInitiator .dropResponder), r)

/-- Passes a frame on to whoever has its destination, and tells whether it did. -/
def passOn (r : Relay) (path : PathId) (h : Header) (frame : Bytes) : Bool × Relay :=
  match (r.slots path).get h.destination with
  | some peer => r.forward peer frame
  | none => (false, r)

/-- Tells a client that a frame could not be passed on. -/
def refuse (r : Relay) (id : ClientId) (h : Header) : Outcome × Relay :=
  match r.update id fun c => do
      let (reply, c) ← c.pack c.id (.sendError h.frameId)
      return c.push (.binary reply) with
  | (.ok (), r) => (.ok (), r.count fun m => { m with sendErrors := m.sendErrors + 1 })
  | failed => failed

/-- Handles a frame to another client. -/
def handleRaw (r : Relay) (id : ClientId) (c : Client) (h : Header) (frame : Bytes) :
    Outcome × Relay :=
  if (r.slots c.path).get c.id = some id then
    match r.passOn c.path h frame with
    | (true, r) =>
      (.ok (), r.count fun m => { m with
        relayedMessages := m.relayedMessages + 1
        relayedBytes := m.relayedBytes + UInt64.ofNat frame.length })
    | (false, r) => r.refuse id h
  -- Who lost its address is not heard any more.
  else (.ok (), r)

def handle (r : Relay) (id : ClientId) (c : Client) : Message → Outcome × Relay
  | .clientHello key => r.update id fun c => c.introduce key
  | .clientAuth auth => r.handleClientAuth id auth
  | .dropResponder responder reason => r.handleDropResponder c responder reason
  | .raw h frame => r.handleRaw id c h frame
  -- What only the server sends is read, and ignored.
  | _ => (.ok (), r)

def received (r : Relay) (id : ClientId) (frame : Bytes) : Outcome × Relay :=
  match r.client? id with
  | none => (.ok (), r)
  | some c =>
    match c.unpack frame with
    | .error e => (.error e, r)
    | .ok (m, c) => (r.setClient id c).handle id c m

/-- Tears a connection down: frees its address, takes its path out of the registry once that is
empty, and tells the other side. -/
def disconnected (r : Relay) (id : ClientId) : Outcome × Relay :=
  match r.client? id with
  | none => (.ok (), r)
  | some c =>
    let r := r.setClient id { c with gone := true }
    let (removed, r) := if c.isAuthenticated then r.vacate c.path c.id id else (false, r)
    let r := { r with registry := (r.registry.prune c.path).2 }
    -- A client that had lost its address leaves silently.
    match removed, c.role? with
    | true, some .initiator => (.ok (), r.announce c.path .initiator (.disconnected c.id))
    | true, some .responder =>
      match (r.slots c.path).initiator with
      | some _ => (.ok (), r.announce c.path .responder (.disconnected c.id))
      | none => (.error .noInitiator, r)
    | _, _ => (.ok (), r)

end Rendezvous.Relay
