import Rendezvous.Proofs.Client.Steps
import Rendezvous.Proofs.Path.Slots
import Rendezvous.Relay.Jobs

/-!
# What the handlers of a relay do

For each handler the ways in which it can end, each with the relay that it leaves, written in the
operations that change one client, one path or the queue.
-/

namespace Rendezvous

namespace Relay

theorem setClient_eq_self {r : Relay} {id : ClientId} {c : Client} (h : r.client? id = some c) :
    r.setClient id c = r := by
  have hclients : (r.setClient id c).clients = r.clients := by
    apply Array.ext_getElem?
    intro i
    have hi := client?_setClient r id ⟨i⟩ c
    by_cases heq : id = ⟨i⟩
    · subst heq
      rw [if_pos rfl, h] at hi
      exact hi.trans h.symm
    · rw [if_neg heq] at hi
      exact hi
  calc r.setClient id c = { r with clients := (r.setClient id c).clients } := rfl
    _ = r := by rw [hclients]

theorem update_cases (r : Relay) (id : ClientId) (f : Client → Except ProtocolError Client) :
    (r.client? id = none ∧ r.update id f = (.ok (), r)) ∨
    (∃ c e, r.client? id = some c ∧ f c = .error e ∧ r.update id f = (.error e, r)) ∨
    (∃ c c', r.client? id = some c ∧ f c = .ok c' ∧ r.update id f = (.ok (), r.setClient id c')) := by
  unfold update
  cases hc : r.client? id with
  | none => exact .inl ⟨rfl, rfl⟩
  | some c =>
    cases hf : f c with
    | error e => exact .inr (.inl ⟨c, e, rfl, hf, by simp [hf]⟩)
    | ok c' => exact .inr (.inr ⟨c, c', rfl, hf, by simp [hf]⟩)

/-- The address that a seat is at is of the client's role. A responder's was free, and an initiator's
was that of the one who is displaced. -/
theorem seat_eq_ok {r r' : Relay} {path : PathId} {id : ClientId} {role : Role} {s : Seat}
    (h : r.seat path id role = .ok (s, r')) :
    ∃ slots, r' = r.setSlots path slots ∧ s.address.kind = role.addressKind ∧
      s.displaced = (r.slots path).get s.address ∧
      (role = .responder → (r.slots path).get s.address = none) ∧
      ∀ a, slots.get a = if a = s.address then some id else (r.slots path).get a := by
  cases role with
  | initiator =>
    cases h
    exact ⟨_, rfl, rfl, rfl, nofun, fun a => Slots.get_setInitiator ..⟩
  | responder =>
    simp only [seat] at h
    split at h
    · next a slots hadd =>
      cases h
      obtain ⟨hkind, hfree, hget⟩ := Slots.add_eq_ok hadd
      exact ⟨slots, rfl, hkind, hfree.symm, fun _ => hfree, hget⟩
    · cases h

/-- Changing the addresses of a path. Where there is no such path nobody has an address. -/
theorem get_setSlots {r : Relay} {path : PathId} {slots : Slots ClientId} {f : Address → Option ClientId}
    (hslots : ∀ a, slots.get a = f a)
    (hnone : r.registry.path? path = none → ∀ a, f a = none) (other : PathId) (a : Address) :
    ((r.setSlots path slots).slots other).get a =
      if path = other then f a else (r.slots other).get a := by
  by_cases heq : path = other
  · subst heq
    rw [if_pos rfl]
    cases hp : r.registry.path? path with
    | none =>
      rw [hnone hp]
      simp [Relay.slots, setSlots, Registry.path?_setSlots, hp]
    | some p => rw [slots_setSlots _ (by simp [hp]), hslots]
  · rw [slots_setSlots_ne r _ heq, if_neg heq]

theorem slots_of_none {r : Relay} {path : PathId} (h : r.registry.path? path = none) (a : Address) :
    (r.slots path).get a = none := by
  simp [slots, h]

theorem get_vacate (r : Relay) (path other : PathId) (address a : Address) (id : ClientId) :
    ((r.vacate path address id).2.slots other).get a =
      if path = other ∧ a = address ∧ (r.slots path).get address = some id then none
      else (r.slots other).get a := by
  have hvacate : (r.vacate path address id).2 =
      r.setSlots path ((r.slots path).removeIf address (· == id)).2 := rfl
  rw [hvacate, get_setSlots (Slots.get_removeIf _ _ · _) (by simp +contextual [slots_of_none])]
  by_cases heq : path = other <;> simp [heq, Option.any_eq_true]

theorem get_del (r : Relay) (path other : PathId) (address a : Address) :
    ((r.setSlots path ((r.slots path).del address).2).slots other).get a =
      if path = other ∧ a = address then none else (r.slots other).get a := by
  have hdel : ((r.slots path).del address).2 = (r.slots path).set address none := rfl
  rw [hdel, get_setSlots (Slots.get_set _ _ · _) (by simp +contextual [slots_of_none])]
  by_cases heq : path = other <;> simp [heq]

/-! ## Connections -/

/-- A client that was just accepted to a path. -/
def newcomer (r : Relay) (path : PathId) (key : PublicKey) (subprotocol : String) (draw : Draw) :
    Client where
  connectionId := r.nextConnection
  subprotocol := subprotocol
  initiatorKey := key
  path := path
  session := draw.session
  cookie := draw.cookie
  nextNumber := draw.number
  expected := none
  phase := .fresh
  gone := false
  inbox := []
  outbox := .empty

theorem client?_accept (r : Relay) (key : PublicKey) (subprotocol : String) (draw : Draw)
    (id : ClientId) :
    (r.accept key subprotocol draw).2.client? id =
      if (⟨r.clients.size⟩ : ClientId) = id then
        some (r.newcomer (r.registry.getOrCreate key).1 key subprotocol draw)
      else r.client? id := by
  cases id
  simp [accept, pathFor, numberConnection, newcomer, client?, Array.getElem?_push, eq_comm]

/-! ## Notices -/

/-- Nothing but inboxes and the queue changes when clients are told something. -/
theorem notifyAll_eq (r : Relay) (ids : List ClientId) (m : Message) : r.notifyAll ids m =
    { r with clients := (r.notifyAll ids m).clients, jobs := (r.notifyAll ids m).jobs } := by
  induction ids generalizing r with
  | nil => rfl
  | cons id ids ih => exact ih (r.notify id m)

theorem pending_notifyAll (r : Relay) (ids : List ClientId) (m : Message) :
    (r.notifyAll ids m).jobs.pending = r.jobs.pending ++ ids.map .deliver := by
  induction ids generalizing r with
  | nil => exact (List.append_nil _).symm
  | cons id ids ih =>
    show ((r.notify id m).notifyAll ids m).jobs.pending = _
    rw [ih]
    exact List.append_assoc ..

/-- Who is not told stays as he was. -/
theorem client?_notifyAll {r : Relay} {id : ClientId} {ids : List ClientId} (h : id ∉ ids) (m : Message) :
    (r.notifyAll ids m).client? id = r.client? id := by
  induction ids generalizing r with
  | nil => rfl
  | cons first rest ih =>
    obtain ⟨hne, hrest⟩ := not_or.mp (mt List.mem_cons.mpr h)
    have hfirst : (r.notify first m).client? id = r.client? id := by
      show (r.modifyClient first _).client? id = _
      rw [client?_modifyClient, if_neg (Ne.symm hne)]
    exact (ih hrest).trans hfirst

/-- Who is told gets the message once. -/
theorem client?_notifyAll_of_mem {r : Relay} {id : ClientId} {ids : List ClientId} (hnodup : ids.Nodup) (hmem : id ∈ ids)
    (m : Message) : (r.notifyAll ids m).client? id =
      (r.client? id).map fun c => { c with inbox := c.inbox ++ [.notice m] } := by
  induction ids generalizing r with
  | nil => cases hmem
  | cons first rest ih =>
    obtain ⟨hfirst, hrest⟩ := List.nodup_cons.mp hnodup
    show ((r.notify first m).notifyAll rest m).client? id = _
    have hnotify : (r.notify first m).client? id = (r.modifyClient first _).client? id := rfl
    by_cases heq : first = id
    · subst heq
      rw [client?_notifyAll hfirst, hnotify, client?_modifyClient, if_pos rfl]
    · have hmem' : id ∈ rest := (List.mem_cons.mp hmem).resolve_left (Ne.symm heq)
      rw [ih hrest hmem', hnotify, client?_modifyClient, if_neg heq]

/-! ## The server's answer -/

/-- A client joins its own path, or, where that was taken out, the registered path of its key. -/
theorem livePath_cases (r : Relay) (c : Client) :
    (r.livePath c = (c.path, r) ∧ ∀ p, r.registry.path? c.path = some p → p.orphan = false) ∨
    (∃ p, r.registry.path? c.path = some p ∧ p.orphan = true ∧
      r.livePath c = r.pathFor c.initiatorKey) := by
  unfold livePath
  cases hp : r.registry.path? c.path with
  | none => exact .inl ⟨rfl, nofun⟩
  | some p =>
    cases ho : p.orphan with
    | true => exact .inr ⟨p, rfl, ho, by simp [ho]⟩
    | false => exact .inl ⟨by simp [ho], fun q hq => by cases hq; exact ho⟩

/-- A client on its way to its address: it is on the path that it is going to join. -/
def onLivePath (r : Relay) (id : ClientId) (c : Client) : Relay :=
  (r.livePath c).2.setClient id { c with path := (r.livePath c).1 }

theorem clients_livePath (r : Relay) (c : Client) : (r.livePath c).2.clients = r.clients := by
  rcases livePath_cases r c with ⟨heq, -⟩ | ⟨p, -, -, heq⟩
  · rw [heq]
  · rw [heq]
    rfl

theorem client?_onLivePath {r : Relay} {id : ClientId} {c : Client} (hc : r.client? id = some c) :
    (r.onLivePath id c).client? id = some { c with path := (r.livePath c).1 } := by
  have hc' : (r.livePath c).2.client? id = some c := by
    rw [client?, clients_livePath]
    exact hc
  rw [onLivePath, client?_setClient, if_pos rfl, hc']
  rfl

theorem seated_eq (c : Client) (a : Admission) (address : Address) (frame : Bytes) :
    ∃ outbox, seated c a address frame = { c with phase := .seated a address, outbox := outbox } := by
  unfold seated
  dsimp only
  split
  · exact ⟨_, rfl⟩
  · exact ⟨_, rfl⟩

/-- A relay after a client got its seat and its answer, which the other side learns of. -/
def settled (r : Relay) (path : PathId) (id : ClientId) (c : Client) (a : Admission) (s : Seat)
    (frame : Bytes) : Relay :=
  (((r.setClient id (seated c a s.address frame)).announce path a.role
    (joined a.role s.address)).count fun m => { m with authenticated := m.authenticated + 1 }).displace
      id s.displaced

/-- There is no seat, or the answer cannot be packed and the seat is given up, or the client is
seated. -/
theorem answer_cases (r : Relay) (id : ClientId) (c : Client) (a : Admission) (cookie : Cookie) :
    (∃ e, (r.onLivePath id c).seat (r.livePath c).1 id a.role = .error e ∧
      r.answer id c a cookie = (.error e, r.onLivePath id c)) ∨
    (∃ s r' e, (r.onLivePath id c).seat (r.livePath c).1 id a.role = .ok (s, r') ∧
      { c with path := (r.livePath c).1 }.pack s.address
        (.serverAuth ⟨cookie, r'.otherSide (r.livePath c).1 a.role⟩) = .error e ∧
      r.answer id c a cookie = (.error e, (r'.vacate (r.livePath c).1 s.address id).2)) ∨
    (∃ s r' frame c', (r.onLivePath id c).seat (r.livePath c).1 id a.role = .ok (s, r') ∧
      { c with path := (r.livePath c).1 }.pack s.address
        (.serverAuth ⟨cookie, r'.otherSide (r.livePath c).1 a.role⟩) = .ok (frame, c') ∧
      r.answer id c a cookie = (.ok (), r'.settled (r.livePath c).1 id c' a s frame)) := by
  unfold answer
  simp only [← onLivePath.eq_1]
  cases hseat : (r.onLivePath id c).seat (r.livePath c).1 id a.role with
  | error e => exact .inl ⟨e, rfl, rfl⟩
  | ok result =>
    obtain ⟨s, r'⟩ := result
    cases hpack : { c with path := (r.livePath c).1 }.pack s.address
        (.serverAuth ⟨cookie, r'.otherSide (r.livePath c).1 a.role⟩) with
    | error e => exact .inr (.inl ⟨s, r', e, rfl, hpack, by simp only [hpack]⟩)
    | ok packed =>
      obtain ⟨frame, c'⟩ := packed
      exact .inr (.inr ⟨s, r', frame, c', rfl, hpack, by simp only [hpack, settled]⟩)

/-- Only an admitted client that is still there is answered. -/
theorem sendServerAuth_cases (r : Relay) (id : ClientId) :
    (∃ outcome, r.sendServerAuth id = (outcome, r)) ∨
    (∃ c a e, r.client? id = some c ∧ c.gone = false ∧ c.phase = .admitted a ∧
      c.expected = some e ∧ r.sendServerAuth id = r.answer id c a e.cookie) := by
  unfold sendServerAuth
  cases hc : r.client? id with
  | none => exact .inl ⟨_, rfl⟩
  | some c =>
    cases hg : c.gone with
    | true => exact .inl ⟨.ok (), by simp [hg]⟩
    | false =>
      simp only [hg, Bool.false_eq_true, if_false]
      split
      · next a e hphase hexpected => exact .inr ⟨c, a, e, rfl, hg, hphase, hexpected, rfl⟩
      · exact .inl ⟨_, rfl⟩
      · exact .inl ⟨_, rfl⟩

/-! ## Frames and departures -/

/-- A frame is refused and nothing changes, or its message is handled. -/
theorem received_cases (r : Relay) (id : ClientId) (frame : Bytes) :
    (∃ outcome, r.received id frame = (outcome, r)) ∨
    (∃ c m c', r.client? id = some c ∧ c.unpack frame = .ok (m, c') ∧
      r.received id frame = (r.setClient id c').handle id c' m) := by
  unfold received
  cases hc : r.client? id with
  | none => exact .inl ⟨_, rfl⟩
  | some c =>
    cases hu : c.unpack frame with
    | error e => exact .inl ⟨_, by simp only [hu]; rfl⟩
    | ok result => exact .inr ⟨c, result.1, result.2, rfl, hu, by simp only [hu]⟩

theorem handleClientAuth_cases (r : Relay) (id : ClientId) (auth : ClientAuth) :
    ∃ outcome s, (r.update id fun c => c.authorize r.service auth) = (outcome, s) ∧
      (r.handleClientAuth id auth = (outcome, s) ∨
        r.handleClientAuth id auth = (outcome, s.dispatch (.answer id))) := by
  unfold handleClientAuth
  split
  · next s hs => exact ⟨.ok (), s, hs, .inr rfl⟩
  · exact ⟨_, _, rfl, .inl rfl⟩

/-- A proof that can be read is looked at, and where it holds the answer is put off. -/
theorem received_of_clientAuth {r : Relay} {id : ClientId} {c c' : Client} {bytes : Bytes}
    {auth : ClientAuth} (hc : r.client? id = some c) (hu : c.unpack bytes = .ok (.clientAuth auth, c')) :
    r.received id bytes =
      match c'.authorize r.service auth with
      | .ok d => (.ok (), ((r.setClient id c').setClient id d).dispatch (.answer id))
      | .error e => (.error e, r.setClient id c') := by
  have hc' : (r.setClient id c').client? id = some c' := by
    rw [client?_setClient, if_pos rfl, hc, Option.map_some]
  have hservice : (r.setClient id c').service = r.service := rfl
  cases h : c'.authorize r.service auth <;>
    simp only [received, hc, hu, handle, handleClientAuth, update, hc', hservice, h]

/-- Only an initiator's wish is granted, whether or not it has its own address. -/
theorem handleDropResponder_cases (r : Relay) (c : Client) (responder : Address)
    (reason : Option CloseCode) :
    (¬ (c.isAuthenticated = true ∧ c.role? = some .initiator) ∧
      (r.handleDropResponder c responder reason).2 = r) ∨
    (c.isAuthenticated = true ∧ c.role? = some .initiator ∧
      (r.slots c.path).get responder = none ∧
      (r.handleDropResponder c responder reason).2 =
        r.setSlots c.path ((r.slots c.path).del responder).2) ∨
    (∃ other f, c.isAuthenticated = true ∧ c.role? = some .initiator ∧
      (r.slots c.path).get responder = some other ∧
      (r.handleDropResponder c responder reason).2 =
        ((r.setSlots c.path ((r.slots c.path).del responder).2).close other
          (reason.getD .dropByInitiator)).count f) := by
  unfold handleDropResponder
  split
  · next h =>
    obtain ⟨hauth, hrole⟩ : c.isAuthenticated = true ∧ c.role? = some .initiator := by simpa using h
    cases hslot : (r.slots c.path).get responder with
    | none => exact .inr (.inl ⟨hauth, hrole, rfl, by simp [Slots.del, hslot]⟩)
    | some other =>
      exact .inr (.inr ⟨other, fun m => { m with droppedResponders := m.droppedResponders + 1 },
        hauth, hrole, rfl, by simp [Slots.del, hslot]⟩)
  · next h => exact .inl ⟨by simpa using h, rfl⟩

/-- A refusal is packed and queued, unless there is no client or it cannot be packed. -/
theorem refuse_cases (r : Relay) (id : ClientId) (h : Header) :
    (∃ f, r.client? id = none ∧ r.refuse id h = (.ok (), r.count f)) ∨
    (∃ c e, r.client? id = some c ∧ c.pack c.id (.sendError h.frameId) = .error e ∧
      r.refuse id h = (.error e, r)) ∨
    (∃ c reply c' f, r.client? id = some c ∧
      c.pack c.id (.sendError h.frameId) = .ok (reply, c') ∧
      r.refuse id h = (.ok (), (r.setClient id (c'.push (.binary reply))).count f)) := by
  unfold refuse update
  cases hc : r.client? id with
  | none => exact .inl ⟨_, rfl, rfl⟩
  | some c =>
    cases hpack : c.pack c.id (.sendError h.frameId) with
    | error e => exact .inr (.inl ⟨c, e, rfl, hpack, by simp [hpack, bind, Except.bind]⟩)
    | ok packed =>
      obtain ⟨reply, c'⟩ := packed
      refine .inr (.inr ⟨c, reply, c', fun m => { m with sendErrors := m.sendErrors + 1 }, rfl,
        hpack, ?_⟩)
      simp only [hpack, bind, Except.bind, pure, Except.pure]

/-- A relay after a client gave up its address, if it had one, and its path was pruned. -/
def departed (r : Relay) (id : ClientId) (c : Client) : Relay :=
  let r := r.setClient id { c with gone := true }
  let r := if c.isAuthenticated then (r.vacate c.path c.id id).2 else r
  { r with registry := (r.registry.prune c.path).2 }

theorem departed_eq (r : Relay) (id : ClientId) (c : Client) : r.departed id c =
    { r.setClient id { c with gone := true } with registry := (r.departed id c).registry } := by
  unfold departed
  cases c.isAuthenticated <;> rfl

theorem vacate_fst (r : Relay) (path : PathId) (address : Address) (id : ClientId) :
    (r.vacate path address id).1 = decide ((r.slots path).get address = some id) := by
  unfold vacate Slots.removeIf
  cases hget : (r.slots path).get address with
  | none => simp
  | some other => by_cases heq : other = id <;> simp [heq, Slots.del, hget]

theorem client?_departed (r : Relay) (id other : ClientId) (c : Client) :
    (r.departed id c).client? other =
      if id = other then (r.client? other).map fun _ => { c with gone := true }
      else r.client? other := by
  rw [departed_eq]
  exact client?_setClient ..

@[simp] theorem jobs_departed (r : Relay) (id : ClientId) (c : Client) : (r.departed id c).jobs = r.jobs := by
  rw [departed_eq]
  rfl

/-- A departure, told by what the client leaves and whether it had its address. -/
theorem disconnected_eq {r : Relay} {id : ClientId} {c : Client} (hc : r.client? id = some c) :
    r.disconnected id =
      match c.isAuthenticated && decide ((r.slots c.path).get c.id = some id), c.role? with
      | true, some .initiator =>
        (.ok (), (r.departed id c).announce c.path .initiator (.disconnected c.id))
      | true, some .responder =>
        match ((r.departed id c).slots c.path).initiator with
        | some _ => (.ok (), (r.departed id c).announce c.path .responder (.disconnected c.id))
        | none => (.error .noInitiator, r.departed id c)
      | _, _ => (.ok (), r.departed id c) := by
  unfold disconnected departed
  simp only [hc]
  cases c.isAuthenticated with
  | false => rfl
  | true =>
    have hfst : ((r.setClient id { c with gone := true }).vacate c.path c.id id).1 =
        decide ((r.slots c.path).get c.id = some id) := vacate_fst ..
    rw [if_pos rfl, if_pos rfl, hfst]
    rfl

/-- Who does not have its address departs silently. -/
theorem disconnected_of_evicted {r : Relay} {id : ClientId} {c : Client} (hc : r.client? id = some c)
    (hnot : ¬ (c.isAuthenticated = true ∧ (r.slots c.path).get c.id = some id)) :
    r.disconnected id = (.ok (), r.departed id c) := by
  have hfalse : (c.isAuthenticated && decide ((r.slots c.path).get c.id = some id)) = false := by
    simpa using hnot
  rw [disconnected_eq hc, hfalse]

/-- Who has its address departs from it, and the other side is told. Of a responder nobody may be left to be
told. -/
theorem disconnected_of_get {r : Relay} {id : ClientId} {c : Client} {role : Role}
    (hc : r.client? id = some c) (hauth : c.isAuthenticated = true)
    (hslot : (r.slots c.path).get c.id = some id) (hrole : c.role? = some role) :
    r.disconnected id =
      (if role = .responder ∧ ((r.departed id c).slots c.path).initiator = none then .error .noInitiator
        else .ok (), (r.departed id c).announce c.path role (.disconnected c.id)) := by
  rw [disconnected_eq hc, hauth, decide_eq_true hslot, hrole]
  cases role with
  | initiator => rfl
  | responder => cases hi : ((r.departed id c).slots c.path).initiator <;> simp [announce, hi, notifyAll]

/-- One that departs has the other side of its path told, if it still had its address. -/
theorem disconnected_cases (r : Relay) (id : ClientId) :
    (r.client? id = none ∧ r.disconnected id = (.ok (), r)) ∨
    (∃ c outcome, r.client? id = some c ∧
      ¬ (c.isAuthenticated = true ∧ (r.slots c.path).get c.id = some id) ∧
      r.disconnected id = (outcome, r.departed id c)) ∨
    (∃ c role outcome, r.client? id = some c ∧ c.isAuthenticated = true ∧
      (r.slots c.path).get c.id = some id ∧ c.role? = some role ∧
      r.disconnected id =
        (outcome, (r.departed id c).announce c.path role (.disconnected c.id))) := by
  cases hc : r.client? id with
  | none => exact .inl ⟨rfl, by simp only [disconnected, hc]⟩
  | some c =>
    by_cases howner : c.isAuthenticated = true ∧ (r.slots c.path).get c.id = some id
    · obtain ⟨hauth, hslot⟩ := howner
      -- Whoever is authenticated has a role.
      have hrole : ∃ role, c.role? = some role := by
        unfold Client.isAuthenticated at hauth
        unfold Client.role?
        cases hphase : c.phase <;> rw [hphase] at hauth <;> first | exact ⟨_, rfl⟩ | cases hauth
      obtain ⟨role, hrole⟩ := hrole
      exact .inr (.inr ⟨c, role, _, rfl, hauth, hslot, hrole,
        disconnected_of_get hc hauth hslot hrole⟩)
    · exact .inr (.inl ⟨c, .ok (), rfl, howner, disconnected_of_evicted hc howner⟩)

/-! ## Jobs -/

theorem runJob_answer_cases (r : Relay) (id : ClientId) :
    ∃ outcome s, r.sendServerAuth id = (outcome, s) ∧
      (r.runJob (.answer id) = s ∨ ∃ e, r.runJob (.answer id) = s.fail id e) := by
  simp only [runJob]
  split
  · next s hs => exact ⟨.ok (), s, hs, .inl rfl⟩
  · next e s hs => exact ⟨.error e, s, hs, .inr ⟨e, rfl⟩⟩

theorem runJob_deliver_cases (r : Relay) (id : ClientId) :
    r.runJob (.deliver id) = r ∨
    ∃ c, r.client? id = some c ∧ (r.runJob (.deliver id) = r.setClient id c.deliverInbox.2 ∨
      ∃ e, r.runJob (.deliver id) = (r.setClient id c.deliverInbox.2).fail id e) := by
  simp only [runJob]
  cases hc : r.client? id with
  | none => exact .inl rfl
  | some c =>
    refine .inr ⟨c, rfl, ?_⟩
    cases hd : c.deliverInbox with
    | mk outcome c' =>
      cases outcome with
      | none => exact .inl (by simp only [hd])
      | some e => exact .inr ⟨e, by simp only [hd]⟩

end Relay

end Rendezvous
