import Rendezvous.Proofs.Relay.Replay

/-!
# The journal of a relay

The frames on a connection do not show everything about it: not which message is in a sealed frame,
not who sent a frame that waits in an inbox, not what was packed without being sent. The *journal* of a
run notes all that, in the order in which it happens, and a client's *history* is its part of it.

* **`Event`** — what may happen on a connection.
* **`Relay.record`** — what an action makes happen, on whichever connections.
* **`Relay.journal`**, **`Relay.history`** — what happened in a run, on all connections or on one.

That the journal is right about inboxes, outboxes and sequence numbers is shown where clients are
accounted for.
-/

namespace Rendezvous

/-! ## Events -/

/-- Something that happens on a client's connection. Whoever a message tells of is found at his address
in `seats`: the addresses of the path when the message was caused, or just before a departure. -/
inductive Event where
  | opened (draw : Relay.Draw)
  /-- A frame of the client to the server was accepted. -/
  | accepted (frame : Frame) (bytes : Bytes)
  | introduced (key : PublicKey)
  | admitted (auth : ClientAuth)
  /-- The client had a responder dropped. -/
  | dropped (responder : Address)
  /-- The server's session key was packed and queued. -/
  | greeted (key : PublicKey) (frame : Bytes)
  /-- The server's answer was packed and queued. -/
  | answered (auth : ServerAuth) (seats : Slots ClientId) (frame : Bytes)
  /-- That a frame could not be passed on was packed and queued. -/
  | refused (id : FrameId) (frame : Bytes)
  /-- A message from outside was packed, and not queued. -/
  | packed (destination : Address) (m : Message) (frame : Bytes)
  /-- A message from outside was packed and queued. -/
  | posted (m : Message) (frame : Bytes)
  /-- The writer was told something that is no frame. -/
  | ordered (item : Outbound)
  /-- A notice was left in the inbox. -/
  | told (m : Message) (seats : Slots ClientId)
  /-- A frame of another client was handed over: queued if nothing waited, else left in the inbox. -/
  | relayed (sender : ClientId) (frame : Bytes)
  /-- The notice that waited longest was packed and queued. -/
  | served (m : Message) (frame : Bytes)
  /-- The frame that waited longest was queued. -/
  | released (frame : Bytes)
  /-- The notice that waited longest could not be packed: the inbox was cleared, and the writer was
  told to close. -/
  | cut (code : CloseCode)
  | collected (items : List Outbound)
  /-- The writer went away, and what waited for it was lost. -/
  | hungUp (items : List Outbound)

/-- Some events only happen because an action asks for them. -/
def Event.From (act : Action) (d : ClientId) : Event → Prop
  | .opened draw => ∃ key subprotocol, act = .accept key subprotocol draw
  | .packed destination m _ => act = .pack d destination m
  | .posted m _ => act = .send d m
  | .hungUp _ => act = .hangUp d
  | _ => True

/-- Events of a relay, each with the client on whose connection it happened. -/
abbrev Journal := List (ClientId × Event)

/-- The events on one connection. -/
def Journal.of (j : Journal) (id : ClientId) : List Event :=
  j.filterMap fun (other, e) => if other = id then some e else none

namespace Journal

variable {j : Journal} {id other : ClientId}

@[simp] theorem of_nil (id : ClientId) : of [] id = [] := rfl

@[simp] theorem of_append (j j' : Journal) (id : ClientId) : of (j ++ j') id = j.of id ++ j'.of id :=
  List.filterMap_append

theorem of_cons (other : ClientId) (e : Event) (j : Journal) (id : ClientId) :
    of ((other, e) :: j) id = (if other = id then [e] else []) ++ j.of id := by
  unfold of
  rw [List.filterMap_cons]
  by_cases h : other = id <;> simp [h]

theorem of_concat (j : Journal) (other : ClientId) (e : Event) (id : ClientId) :
    of (j ++ [(other, e)]) id = j.of id ++ if other = id then [e] else [] := by
  rw [of_append, of_cons, of_nil, List.append_nil]

theorem of_map_self (id : ClientId) (es : List Event) : of (es.map (id, ·)) id = es := by
  simp [of, List.filterMap_map]

theorem of_map_ne (h : other ≠ id) (es : List Event) : of (es.map (other, ·)) id = [] := by
  simp [of, List.filterMap_map, h]

theorem mem_of {e : Event} : e ∈ j.of id ↔ (id, e) ∈ j := by
  simp only [of, List.mem_filterMap, Prod.exists]
  constructor
  · rintro ⟨other, e', hmem, h⟩
    split at h
    · next heq =>
      cases h
      exact heq ▸ hmem
    · cases h
  · intro hmem
    exact ⟨id, e, hmem, if_pos rfl⟩

end Journal

/-- What follows from an operation, if it succeeds. -/
def whenOk {α ε β : Type} (x : Except ε α) (f : α → List β) : List β :=
  match x with
  | .ok a => f a
  | .error _ => []

theorem mem_whenOk {α ε β : Type} {x : Except ε α} {f : α → List β} {b : β} :
    b ∈ whenOk x f ↔ ∃ a, x = .ok a ∧ b ∈ f a := by
  cases x <;> simp [whenOk]

/-! ## What one client's operations make happen -/

namespace Client

/-- A message for an authenticated client, packed. -/
def sending (c : Client) (m : Message) : Except ProtocolError (Bytes × Client) :=
  if c.isAuthenticated then c.pack c.id m else .error .notAuthenticated

theorem send_eq (c : Client) (m : Message) :
    c.send m = (fun p => p.2.push (.binary p.1)) <$> c.sending m := by
  unfold send sending
  cases c.isAuthenticated with
  | false => rfl
  | true =>
    cases hpack : c.pack c.id m with
    | error e => simp [bind, Except.bind, Functor.map, Except.map]
    | ok packed => simp [bind, Except.bind, Functor.map, Except.map, pure, Except.pure]

/-- Delivering packs the notices and passes on the frames, up to the first notice that cannot be
packed. -/
def recordDelivery (c : Client) : List Delivery → List Event
  | [] => []
  | .relayed frame :: rest => .released frame :: (c.push (.binary frame)).recordDelivery rest
  | .notice m :: rest =>
    match c.sending m with
    | .ok (frame, c) => .served m frame :: (c.push (.binary frame)).recordDelivery rest
    | .error e => [.cut e.closeCode]

end Client

/-- The pings that a client asked for are set up right behind the server's answer. -/
def Admission.recordPings (a : Admission) : List Event :=
  if a.pingInterval = 0 then [] else [.ordered (.keepAlive a.pingInterval.toNat)]

/-! ## What an action makes happen -/

namespace Relay

/-- Events on the connection of a client, if there is one. -/
def note (r : Relay) (id : ClientId) (f : Client → List Event) : Journal :=
  match r.client? id with
  | some c => (f c).map (id, ·)
  | none => []

/-- Those who learn about someone of the given role. -/
def audience (r : Relay) (path : PathId) : Role → List ClientId
  | .initiator => (r.slots path).responders.map Prod.snd
  | .responder => (r.slots path).initiator.toList

theorem announce_eq (r : Relay) (path : PathId) (role : Role) (m : Message) :
    r.announce path role m = r.notifyAll (r.audience path role) m := by
  cases role <;> rfl

def recordAnnouncement (r : Relay) (path : PathId) (role : Role) (m : Message)
    (seats : Slots ClientId) : Journal :=
  (r.audience path role).map fun d => (d, .told m seats)

def recordDisplacement (id : ClientId) : Option ClientId → Journal
  | some other => if other = id then [] else [(other, .ordered (.close .dropByInitiator))]
  | none => []

/-- A client that is seated is answered, and the other side learns of it. -/
def recordSeating (r : Relay) (path : PathId) (id : ClientId) (a : Admission) (s : Seat)
    (auth : ServerAuth) (frame : Bytes) : Journal :=
  (.answered auth (r.slots path) frame :: a.recordPings).map (id, ·) ++
    r.recordAnnouncement path a.role (joined a.role s.address) (r.slots path) ++
    recordDisplacement id s.displaced

def recordAnswer (r : Relay) (id : ClientId) (c : Client) (a : Admission) (cookie : Cookie) :
    Journal :=
  let path := (r.livePath c).1
  whenOk ((r.onLivePath id c).seat path id a.role) fun (s, r) =>
    let auth : ServerAuth := ⟨cookie, r.otherSide path a.role⟩
    whenOk ({ c with path := path }.pack s.address (.serverAuth auth)) fun (frame, _) =>
      r.recordSeating path id a s auth frame

def recordServerAuth (r : Relay) (id : ClientId) : Journal :=
  match r.client? id with
  | none => []
  | some c =>
    if c.gone then []
    else match c.phase, c.expected with
      | .admitted a, some e => r.recordAnswer id c a e.cookie
      | _, _ => []

def recordRefusal (r : Relay) (id : ClientId) (h : Header) : Journal :=
  r.note id fun c => whenOk (c.pack c.id (.sendError h.frameId)) fun (reply, _) =>
    [.refused h.frameId reply]

def recordRaw (r : Relay) (id : ClientId) (c : Client) (h : Header) (frame : Bytes) : Journal :=
  if (r.slots c.path).get c.id = some id then
    ((r.slots c.path).get h.destination).toList.map (fun peer => (peer, .relayed id frame)) ++
      match r.passOn c.path h frame with
      | (true, _) => []
      | (false, r) => r.recordRefusal id h
  else []

def recordDrop (r : Relay) (id : ClientId) (c : Client) (responder : Address)
    (reason : Option CloseCode) : Journal :=
  if c.isAuthenticated && c.role? == some .initiator then
    (id, .dropped responder) :: ((r.slots c.path).get responder).toList.map fun other =>
      (other, .ordered (.close (reason.getD .dropByInitiator)))
  else []

def recordHandling (r : Relay) (id : ClientId) (c : Client) : Message → Journal
  | .clientHello key => whenOk (c.introduce key) fun _ => [(id, .introduced key)]
  | .clientAuth auth => whenOk (c.authorize r.service auth) fun _ => [(id, .admitted auth)]
  | .dropResponder responder reason => r.recordDrop id c responder reason
  | .raw h frame => r.recordRaw id c h frame
  | _ => []

/-- A frame of a client to the server that is accepted counts before it is handled. -/
def recordAcceptance (r : Relay) (id : ClientId) (bytes : Bytes) : Journal :=
  r.note id fun c => (c.accepts? bytes).toList.map fun f => .accepted f bytes

def recordFrame (r : Relay) (id : ClientId) (bytes : Bytes) : Journal :=
  r.recordAcceptance id bytes ++
    match r.client? id with
    | none => []
    | some c => whenOk (c.unpack bytes) fun (m, c) => (r.setClient id c).recordHandling id c m

/-- One that departs is reported if it still had its address. -/
def recordDeparture (r : Relay) (id : ClientId) : Journal :=
  match r.client? id with
  | none => []
  | some c =>
    if c.isAuthenticated ∧ (r.slots c.path).get c.id = some id then
      match c.role? with
      | some role =>
        (r.departed id c).recordAnnouncement c.path role (.disconnected c.id) (r.slots c.path)
      | none => []
    else []

def recordJob (r : Relay) : Job → Journal
  | .answer id =>
    r.recordServerAuth id ++
      match (r.sendServerAuth id).1 with
      | .ok () => []
      | .error e => [(id, .ordered (.close e.closeCode))]
  | .deliver id => r.note id fun c => c.recordDelivery c.inbox

/-- What an action makes happen. -/
def record (r : Relay) : Action → Journal
  | .accept key subprotocol draw => [((r.accept key subprotocol draw).1, .opened draw)]
  | .greet id => r.note id fun c =>
    if c.phase = .fresh then
      whenOk (c.pack .server (.serverHello c.session.publicKey)) fun (frame, _) =>
        [.greeted c.session.publicKey frame]
    else []
  | .receive id bytes => r.recordFrame id bytes
  | .unpack id bytes => r.recordAcceptance id bytes
  | .pack id destination m => r.note id fun c =>
    whenOk (c.pack destination m) fun (frame, _) => [.packed destination m frame]
  | .send id m => r.note id fun c =>
    whenOk (c.sending m) fun (frame, _) => [.posted m frame]
  | .answer id => r.recordServerAuth id
  | .disconnect id => r.recordDeparture id
  | .runJob place =>
    match r.jobs.takeAt place with
    | some (job, jobs) => { r with jobs := jobs }.recordJob job
    | none => []
  | .fail id e => r.note id fun _ => [.ordered (.close e.closeCode)]
  | .close id code => r.note id fun _ => [.ordered (.close code)]
  | .collect id => r.note id fun c => [.collected c.outbox.items]
  | .hangUp id => r.note id fun c => [.hungUp c.outbox.items]

/-! ## Runs -/

/-- What happens in a run, in order. -/
def journal : Relay → List Action → Journal
  | _, [] => []
  | r, a :: rest => r.record a ++ journal (r.perform a) rest

/-- What happens on one connection in a run, in order. -/
def history (r : Relay) (actions : List Action) (id : ClientId) : List Event :=
  (r.journal actions).of id

theorem journal_append (r : Relay) (xs ys : List Action) :
    r.journal (xs ++ ys) = r.journal xs ++ (r.run xs).journal ys := by
  induction xs generalizing r with
  | nil => rfl
  | cons a rest ih => rw [List.cons_append, journal, ih, journal, List.append_assoc, run_cons]

theorem journal_concat (r : Relay) (actions : List Action) (a : Action) :
    r.journal (actions ++ [a]) = r.journal actions ++ (r.run actions).record a := by
  rw [journal_append, journal, journal, List.append_nil]

theorem history_append (r : Relay) (xs ys : List Action) (id : ClientId) :
    r.history (xs ++ ys) id = r.history xs id ++ (r.run xs).history ys id := by
  rw [history, journal_append, Journal.of_append]
  rfl

/-- **Invariants of runs and their journals.** What holds at the start and is kept by each step, which
goes on with the journal, holds after every run. -/
theorem journal_induction {P : Relay → Journal → Prop}
    (step : ∀ r j a, P r j → P (r.perform a) (j ++ r.record a)) {r : Relay} {j : Journal}
    (start : P r j) (actions : List Action) : P (r.run actions) (j ++ r.journal actions) := by
  induction actions generalizing r j with
  | nil =>
    rw [journal, List.append_nil]
    exact start
  | cons a rest ih =>
    rw [journal, ← List.append_assoc]
    exact ih (step r j a start)

theorem note_eq {r : Relay} {id : ClientId} {c : Client} (hc : r.client? id = some c)
    (f : Client → List Event) : r.note id f = (f c).map (id, ·) := by
  simp only [note, hc]

theorem note_none {r : Relay} {id : ClientId} (hc : r.client? id = none)
    (f : Client → List Event) : r.note id f = [] := by
  simp only [note, hc]

theorem mem_note {r : Relay} {id d : ClientId} {f : Client → List Event} {e : Event} :
    (d, e) ∈ r.note id f ↔ d = id ∧ ∃ c, r.client? id = some c ∧ e ∈ f c := by
  cases hc : r.client? id with
  | none => simp [note_none hc]
  | some c => simp [note_eq hc, and_comm, eq_comm]

end Relay

end Rendezvous
