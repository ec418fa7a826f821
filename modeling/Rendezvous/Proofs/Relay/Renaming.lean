import Mathlib.Logic.Equiv.Basic
import Rendezvous.Proofs.Relay.Confinement

/-!
# Names do not matter

A relay names its clients and paths by their places among all that there ever were, which depend on whatever
else has happened. What is done with a client or a path does not depend on its name: slots whose occupants
are renamed behave alike, and so does a client that is moved to another place, with another path and another
number of its connection.

* **`Slots.rename`**, **`Client.relocate`** — slots and clients under other names.
* **`Renaming`** — other names for clients and paths.
* **`Relay.nextNames`** — the names that come next, of which an action takes one of a kind at most.
* **`Relay.Alike`** — two relays have the same clients and paths of a key, under other names.
* **`Relay.Lockstep`** — they are alike, and have put off the same since their queues were given ones.
-/

namespace Rendezvous

/-! ## Slots -/

namespace Slots

variable {α β : Type} (f : α → β) (s : Slots α)

/-- Slots with other names for the occupants. -/
def rename : Slots β :=
  ⟨s.occupants.map (Option.map f), s.lastAllocated⟩

theorem rename_rename {γ : Type} (g : β → γ) : (s.rename f).rename g = s.rename (g ∘ f) := by
  simp [rename, Vector.map_map]

theorem rename_id : s.rename id = s := by
  simp [rename]

theorem rename_congr {g : α → β} (h : ∀ a occupant, s.get a = some occupant → f occupant = g occupant) :
    s.rename f = s.rename g := by
  have hmap : s.occupants.map (Option.map f) = s.occupants.map (Option.map g) := by
    ext i hi : 1
    rw [Vector.getElem_map, Vector.getElem_map]
    refine Option.map_congr fun occupant hoccupant => h ⟨UInt8.ofNat i⟩ occupant ?_
    simpa [get, Nat.mod_eq_of_lt hi] using hoccupant
  rw [rename, hmap, rename]

theorem get_rename (a : Address) : (s.rename f).get a = (s.get a).map f := by
  simp [rename, get]

theorem set_rename (a : Address) (o : Option α) :
    (s.rename f).set a (o.map f) = (s.set a o).rename f := by
  simp [rename, set, Vector.map_set]

theorem empty_rename : (empty : Slots α).rename f = empty := by
  simp [rename, empty]

theorem initiator_rename : (s.rename f).initiator = s.initiator.map f :=
  get_rename f s .initiator

theorem setInitiator_rename (occupant : α) : (s.rename f).setInitiator (f occupant) =
    ((s.setInitiator occupant).1.map f, (s.setInitiator occupant).2.rename f) := by
  rw [setInitiator, initiator_rename]
  exact congrArg _ (set_rename f s .initiator (some occupant))

theorem del_rename (a : Address) :
    (s.rename f).del a = ((s.del a).1.map f, (s.del a).2.rename f) := by
  rw [del, get_rename]
  exact congrArg _ (set_rename f s a none)

theorem removeIf_rename (a : Address) {test : α → Bool} {test' : β → Bool}
    (h : ∀ occupant, test' (f occupant) = test occupant) : (s.rename f).removeIf a test' =
      ((s.removeIf a test).1.map f, (s.removeIf a test).2.rename f) := by
  have hany : ((s.rename f).get a).any test' = (s.get a).any test := by
    rw [get_rename]
    cases s.get a with
    | none => rfl
    | some occupant => exact h occupant
  unfold removeIf
  rw [hany]
  split
  · exact del_rename f s a
  · rfl

theorem add_rename (occupant : α) : (s.rename f).add (f occupant) =
    (s.add occupant).map fun added => (added.1, added.2.rename f) := by
  have hfree : ∀ a, ((s.rename f).get a).isNone = (s.get a).isNone := fun a => by
    rw [get_rename, Option.isNone_map]
  have hlast : (s.rename f).lastAllocated = s.lastAllocated := rfl
  unfold add
  simp only [hfree, hlast]
  cases (rotation s.lastAllocated).find? fun a => (s.get a).isNone with
  | none => rfl
  | some a =>
    exact congrArg (fun t : Slots β => Except.ok (a, { t with lastAllocated := a }))
      (set_rename f s a (some occupant))

theorem isEmpty_rename : (s.rename f).isEmpty = s.isEmpty := by
  rw [Bool.eq_iff_iff, isEmpty_iff, isEmpty_iff]
  simp [get_rename]

theorem responders_rename :
    (s.rename f).responders = s.responders.map fun entry => (entry.1, f entry.2) := by
  unfold responders
  rw [List.map_filterMap]
  refine List.filterMap_congr fun a _ => ?_
  rw [get_rename]
  cases s.get a <;> rfl

theorem responderIds_rename : (s.rename f).responderIds = s.responderIds := by
  rw [responderIds, responderIds, responders_rename, List.map_map]
  rfl

end Slots

/-! ## Clients -/

namespace Client

/-- A client under other names for its path and its connection. -/
def relocate (c : Client) (connection : Nat) (path : PathId) : Client :=
  { c with connectionId := connection, path := path }

variable {c : Client} {n : Nat} {p : PathId}

theorem path_relocate : (c.relocate n p).path = p := rfl

theorem phase_relocate : (c.relocate n p).phase = c.phase := rfl

theorem expected_relocate : (c.relocate n p).expected = c.expected := rfl

theorem gone_relocate : (c.relocate n p).gone = c.gone := rfl

theorem id_relocate : (c.relocate n p).id = c.id := rfl

theorem role?_relocate : (c.relocate n p).role? = c.role? := rfl

theorem isAuthenticated_relocate : (c.relocate n p).isAuthenticated = c.isAuthenticated := rfl

theorem pack_relocate (destination : Address) (m : Message) : (c.relocate n p).pack destination m =
    (c.pack destination m).map fun packed => (packed.1, packed.2.relocate n p) := by
  unfold pack
  show (if c.nextNumber.isSentinel = true then _ else _) =
    Except.map _ (if c.nextNumber.isSentinel = true then _ else _)
  split
  · rfl
  · simp only [map_bind_eq]
    rfl

theorem send_relocate (m : Message) :
    (c.relocate n p).send m = (c.send m).map fun c => c.relocate n p := by
  unfold send
  show (if ¬ c.isAuthenticated = true then _ else _) =
    Except.map _ (if ¬ c.isAuthenticated = true then _ else _)
  split
  · rfl
  · show ((c.relocate n p).pack c.id m >>= _) = Except.map _ (c.pack c.id m >>= _)
    rw [pack_relocate, map_bind_eq]
    cases c.pack c.id m <;> rfl

theorem greet_relocate : (c.relocate n p).greet = c.greet.map fun c => c.relocate n p := by
  unfold greet
  rw [phase_relocate]
  cases c.phase with
  | fresh =>
    show ((c.relocate n p).pack .server (.serverHello c.session.publicKey) >>= _) =
      Except.map _ (c.pack .server (.serverHello c.session.publicKey) >>= _)
    rw [pack_relocate, map_bind_eq]
    cases c.pack .server (.serverHello c.session.publicKey) <;> rfl
  | _ => rfl

theorem introduce_relocate (key : PublicKey) :
    (c.relocate n p).introduce key = (c.introduce key).map fun c => c.relocate n p := by
  unfold introduce
  rw [phase_relocate]
  cases c.phase <;> rfl

theorem authorize_relocate (service : Service) (auth : ClientAuth) :
    (c.relocate n p).authorize service auth =
      (c.authorize service auth).map fun c => c.relocate n p := by
  have hclaimed : (c.relocate n p).claimed? = c.claimed? := rfl
  unfold authorize
  rw [hclaimed]
  cases c.claimed? with
  | none => rfl
  | some claim =>
    show (if auth.yourCookie ≠ c.cookie then _ else _) =
      Except.map _ (if auth.yourCookie ≠ c.cookie then _ else _)
    split
    · rfl
    show (if auth.subprotocols.find? service.speaks ≠ some c.subprotocol then _ else _) =
      Except.map _ (if auth.subprotocols.find? service.speaks ≠ some c.subprotocol then _ else _)
    split
    · rfl
    show (service.keyFor auth.yourKey >>= _) = Except.map _ (service.keyFor auth.yourKey >>= _)
    cases service.keyFor auth.yourKey <;> rfl

theorem unpack_relocate (bytes : Bytes) : (c.relocate n p).unpack bytes =
    (c.unpack bytes).map fun unpacked => (unpacked.1, unpacked.2.relocate n p) := by
  unfold unpack
  cases ofCodec (Frame.parse bytes) with
  | error e => rfl
  | ok f =>
    show (if ¬ f.header.destination = .server ∧ ¬ c.mayReach f.header.destination.kind = true
        then _ else _) = Except.map _
      (if ¬ f.header.destination = .server ∧ ¬ c.mayReach f.header.destination.kind = true
        then _ else _)
    split
    · rfl
    show (if f.header.source ≠ c.id then _ else _) =
      Except.map _ (if f.header.source ≠ c.id then _ else _)
    split
    · rfl
    show (if f.header.destination = .server then _ else _) =
      Except.map _ (if f.header.destination = .server then _ else _)
    split
    · show (c.acceptHeader f.header >>= _) = Except.map _ (c.acceptHeader f.header >>= _)
      cases c.acceptHeader f.header with
      | error e => rfl
      | ok next =>
        show (c.openPayload f >>= _) = Except.map _ (c.openPayload f >>= _)
        cases c.openPayload f <;> rfl
    · rfl

theorem map_pack_relocate (destination : Address) (m : Message) :
    Prod.snd <$> (c.relocate n p).pack destination m =
      (Prod.snd <$> c.pack destination m).map fun c => c.relocate n p := by
  rw [pack_relocate]
  cases c.pack destination m <;> rfl

theorem map_unpack_relocate (bytes : Bytes) : Prod.snd <$> (c.relocate n p).unpack bytes =
    (Prod.snd <$> c.unpack bytes).map fun c => c.relocate n p := by
  rw [unpack_relocate]
  cases c.unpack bytes <;> rfl

theorem deliverAll_relocate (deliveries : List Delivery) : (c.relocate n p).deliverAll deliveries =
    ((c.deliverAll deliveries).1, (c.deliverAll deliveries).2.relocate n p) := by
  induction deliveries generalizing c with
  | nil => rfl
  | cons d rest ih =>
    cases d with
    | relayed frame => exact @ih (c.push (.binary frame))
    | notice m =>
      rw [deliverAll, deliverAll, send_relocate]
      cases c.send m with
      | error e => rfl
      | ok c' => exact @ih c'

end Client

/-! ## The next names -/

namespace Relay

/-- The name that the next client will have. -/
def nextClient (r : Relay) : ClientId := ⟨r.clients.size⟩

/-- The name that the next path will have. -/
def nextPath (r : Relay) : PathId := ⟨r.registry.paths.size⟩

/-- The names that are given next. -/
def nextNames (r : Relay) : ClientId × PathId :=
  (r.nextClient, r.nextPath)

@[simp] theorem nextNames_modifyClient (r : Relay) (id : ClientId) (f : Client → Client) :
    (r.modifyClient id f).nextNames = r.nextNames := by
  simp [nextNames, nextClient, nextPath, modifyClient]

@[simp] theorem nextNames_setClient (r : Relay) (id : ClientId) (c : Client) :
    (r.setClient id c).nextNames = r.nextNames :=
  nextNames_modifyClient ..

@[simp] theorem nextNames_setSlots (r : Relay) (path : PathId) (slots : Slots ClientId) :
    (r.setSlots path slots).nextNames = r.nextNames := by
  simp [nextNames, nextClient, nextPath, setSlots, Registry.setSlots, Registry.modify]

@[simp] theorem nextNames_count (r : Relay) (f : Metrics → Metrics) :
    (r.count f).nextNames = r.nextNames := rfl

@[simp] theorem nextNames_close (r : Relay) (id : ClientId) (code : CloseCode) :
    (r.close id code).nextNames = r.nextNames :=
  nextNames_modifyClient ..

@[simp] theorem nextNames_fail (r : Relay) (id : ClientId) (e : ProtocolError) :
    (r.fail id e).nextNames = r.nextNames := by
  unfold fail
  dsimp only
  split <;> simp

@[simp] theorem nextNames_announce (r : Relay) (path : PathId) (role : Role) (m : Message) :
    (r.announce path role m).nextNames = r.nextNames := by
  have hall : ∀ (ids : List ClientId) (r : Relay), (r.notifyAll ids m).nextNames = r.nextNames := by
    intro ids
    induction ids with
    | nil => exact fun _ => rfl
    | cons id rest ih => exact fun r => (ih (r.notify id m)).trans (nextNames_modifyClient ..)
  cases role <;> exact hall ..

@[simp] theorem nextNames_displace (r : Relay) (id : ClientId) (displaced : Option ClientId) :
    (r.displace id displaced).nextNames = r.nextNames := by
  unfold displace
  split
  · split <;> simp
  · rfl

theorem nextNames_prune (r : Relay) (path : PathId) :
    nextNames { r with registry := (r.registry.prune path).2 } = r.nextNames := by
  rcases Registry.prune_cases r.registry path with heq | ⟨-, -, -, -, heq⟩ <;>
    simp [nextNames, nextClient, nextPath, heq, Registry.modify]

@[simp] theorem nextNames_update (r : Relay) (id : ClientId) (f : Client → Except ProtocolError Client) :
    (r.update id f).2.nextNames = r.nextNames := by
  rcases update_cases r id f with ⟨-, heq⟩ | ⟨c, e, -, -, heq⟩ | ⟨c, c', -, -, heq⟩ <;> simp [heq]

theorem nextNames_handleRaw (r : Relay) (id : ClientId) (c : Client) (h : Header) (frame : Bytes) :
    (r.handleRaw id c h frame).2.nextNames = r.nextNames := by
  have hpassed : (r.passOn c.path h frame).2.nextNames = r.nextNames := by
    unfold passOn forward
    split
    · split <;> simp
    · rfl
  have hrefused : ∀ r : Relay, (r.refuse id h).2.nextNames = r.nextNames := by
    intro r
    rcases refuse_cases r id h with ⟨f, -, heq⟩ | ⟨c, e, -, -, heq⟩ | ⟨c, reply, c', f, -, -, heq⟩ <;>
      simp [heq]
  unfold handleRaw
  split
  · split
    · next s hs =>
      rw [hs] at hpassed
      exact hpassed
    · next s hs =>
      rw [hs] at hpassed
      exact (hrefused s).trans hpassed
  · rfl

theorem nextNames_received (r : Relay) (id : ClientId) (frame : Bytes) :
    (r.received id frame).2.nextNames = r.nextNames := by
  rcases received_cases r id frame with ⟨outcome, heq⟩ | ⟨c, m, c', -, -, heq⟩
  · rw [heq]
  rw [heq, ← nextNames_setClient r id c']
  generalize r.setClient id c' = r
  cases m with
  | clientHello own => exact nextNames_update ..
  | clientAuth auth =>
    obtain ⟨outcome, s, hs, hcases⟩ := handleClientAuth_cases r id auth
    have hupdate := nextNames_update r id fun c => c.authorize r.service auth
    rw [hs] at hupdate
    show (r.handleClientAuth id auth).2.nextNames = _
    rcases hcases with heq | heq <;> rw [heq] <;> exact hupdate
  | dropResponder responder reason =>
    show (r.handleDropResponder c' responder reason).2.nextNames = _
    rcases handleDropResponder_cases r c' responder reason with ⟨-, heq⟩ | ⟨-, -, -, heq⟩ |
      ⟨other, f, -, -, -, heq⟩ <;> simp [heq]
  | raw h bytes => exact nextNames_handleRaw ..
  | _ => rfl

theorem nextNames_disconnected (r : Relay) (id : ClientId) :
    (r.disconnected id).2.nextNames = r.nextNames := by
  have hdeparted : ∀ c, (r.departed id c).nextNames = r.nextNames := by
    intro c
    unfold departed
    dsimp only
    rw [nextNames_prune]
    split <;> simp [vacate]
  rcases disconnected_cases r id with ⟨-, heq⟩ | ⟨c, outcome, -, -, heq⟩ |
    ⟨c, role, outcome, -, -, -, -, heq⟩ <;> simp [heq, hdeparted]

/-- Only the path that a client joins can be a new one. -/
theorem nextNames_answer (r : Relay) (id : ClientId) (c : Client) (a : Admission) (cookie : Cookie) :
    (r.answer id c a cookie).2.nextNames = (r.livePath c).2.nextNames := by
  have hlive : (r.onLivePath id c).nextNames = (r.livePath c).2.nextNames := nextNames_setClient ..
  rcases answer_cases r id c a cookie with ⟨e, -, heq⟩ | ⟨seat, r', e, hseat, -, heq⟩ |
    ⟨seat, r', frame, c', hseat, -, heq⟩
  · rw [heq]
    exact hlive
  · obtain ⟨slots, rfl, -⟩ := seat_eq_ok hseat
    simp [heq, vacate, hlive]
  · obtain ⟨slots, rfl, -⟩ := seat_eq_ok hseat
    simp [heq, settled, hlive]

theorem nextNames_runJob_answer (r : Relay) (id : ClientId) :
    (r.runJob (.answer id)).nextNames = (r.sendServerAuth id).2.nextNames := by
  obtain ⟨outcome, s, hs, heq | ⟨e, heq⟩⟩ := runJob_answer_cases r id <;> simp [heq, hs]

theorem nextNames_runJob_deliver (r : Relay) (id : ClientId) :
    (r.runJob (.deliver id)).nextNames = r.nextNames := by
  rcases runJob_deliver_cases r id with heq | ⟨c, -, heq | ⟨e, heq⟩⟩ <;> simp [heq]

/-- A path is found, or one is made. -/
theorem nextNames_pathFor (r : Relay) (key : PublicKey) :
    (r.pathFor key).2.nextNames = r.nextNames ∨
      (r.pathFor key).2.nextNames = (r.nextClient, ⟨r.registry.paths.size + 1⟩) := by
  unfold pathFor
  rcases Registry.getOrCreate_cases r.registry key with ⟨found, -, heq⟩ | ⟨-, heq⟩ <;>
    simp [heq, nextNames, nextClient, nextPath]

theorem nextNames_sendServerAuth (r : Relay) (id : ClientId) :
    (r.sendServerAuth id).2.nextNames = r.nextNames ∨
      (r.sendServerAuth id).2.nextNames = (r.nextClient, ⟨r.registry.paths.size + 1⟩) := by
  rcases sendServerAuth_cases r id with ⟨outcome, heq⟩ | ⟨c, a, e, -, -, -, -, heq⟩
  · exact .inl (by rw [heq])
  · rw [heq, nextNames_answer]
    rcases livePath_cases r c with ⟨heq, -⟩ | ⟨p, -, -, heq⟩
    · exact .inl (by rw [heq])
    · rw [heq]
      exact nextNames_pathFor r c.initiatorKey

/-- An action that accepts no connection takes no name of a client, and one of a path at most. -/
theorem nextNames_perform_cases (r : Relay) (act : Action) :
    (∃ key subprotocol draw, act = .accept key subprotocol draw) ∨
      (r.perform act).nextNames = r.nextNames ∨
      (r.perform act).nextNames = (r.nextClient, ⟨r.registry.paths.size + 1⟩) := by
  cases act with
  | accept key subprotocol draw => exact .inl ⟨key, subprotocol, draw, rfl⟩
  | greet | unpack | pack | send => exact .inr (.inl (nextNames_update ..))
  | receive id bytes => exact .inr (.inl (nextNames_received ..))
  | answer id => exact .inr (nextNames_sendServerAuth r id)
  | disconnect id => exact .inr (.inl (nextNames_disconnected ..))
  | runJob place =>
    rw [perform]
    split
    · next job jobs _ =>
      cases job with
      | answer id =>
        rw [nextNames_runJob_answer]
        exact .inr (nextNames_sendServerAuth { r with jobs := jobs } id)
      | deliver id => exact .inr (.inl (nextNames_runJob_deliver { r with jobs := jobs } id))
    · exact .inr (.inl rfl)
  | fail id e => exact .inr (.inl (nextNames_fail ..))
  | close id code => exact .inr (.inl (nextNames_close ..))
  | collect | hangUp => exact .inr (.inl (nextNames_modifyClient ..))

/-- At most one name of a client is taken, the next one. -/
theorem nextClient_perform (r : Relay) (act : Action) :
    (r.perform act).nextClient = r.nextClient ∨ (r.perform act).nextClient = ⟨r.clients.size + 1⟩ := by
  rcases nextNames_perform_cases r act with ⟨key, subprotocol, draw, rfl⟩ | heq | heq
  · exact .inr (congrArg ClientId.mk (Array.size_push _))
  · exact .inl (congrArg Prod.fst heq)
  · exact .inl (congrArg Prod.fst heq)

/-- At most one name of a path is taken, the next one. -/
theorem nextPath_perform (r : Relay) (act : Action) :
    (r.perform act).nextPath = r.nextPath ∨ (r.perform act).nextPath = ⟨r.registry.paths.size + 1⟩ := by
  rcases nextNames_perform_cases r act with ⟨key, subprotocol, draw, rfl⟩ | heq | heq
  · have hpath : (r.perform (.accept key subprotocol draw)).nextPath = (r.pathFor key).2.nextPath := rfl
    rw [hpath]
    exact (nextNames_pathFor r key).imp (congrArg Prod.snd) (congrArg Prod.snd)
  · exact .inl (congrArg Prod.snd heq)
  · exact .inr (congrArg Prod.snd heq)

end Relay

/-! ## Relays that are alike as far as a key is concerned -/

/-- Other names for clients and paths. -/
structure Renaming where
  client : Equiv.Perm ClientId
  path : Equiv.Perm PathId

namespace Renaming

/-- A job for a client under its other name. -/
def job (ρ : Renaming) : Job → Job
  | .answer id => .answer (ρ.client id)
  | .deliver id => .deliver (ρ.client id)

@[simp] theorem client_job (ρ : Renaming) (job : Job) : (ρ.job job).client = ρ.client job.client := by
  cases job <;> rfl

/-- The same names. -/
def refl : Renaming := ⟨.refl _, .refl _⟩

theorem job_refl (job : Job) : refl.job job = job := by
  cases job <;> rfl

/-- The names that there were before. -/
def symm (ρ : Renaming) : Renaming :=
  ⟨ρ.client.symm, ρ.path.symm⟩

/-- Other names are the same ones for the clients and paths of a key. -/
structure Agrees (ρ ρ' : Renaming) (key : PublicKey) (r : Relay) : Prop where
  client : ∀ id, r.keyOf id = some key → ρ'.client id = ρ.client id
  path : ∀ path, r.HasPath path key → ρ'.path path = ρ.path path

theorem symm_job_job (ρ : Renaming) (job : Job) : ρ.symm.job (ρ.job job) = job := by
  cases job <;> simp [Renaming.job, symm]

end Renaming

namespace Relay

/-- Two relays are alike as far as a key is concerned: they offer the same, and have the same clients and
paths of the key, under other names. Nothing is said about other keys, nor about numbers of paths and
connections. -/
structure Alike (key : PublicKey) (ρ : Renaming) (r s : Relay) : Prop where
  service : s.service = r.service
  client : ∀ id c, r.client? id = some c → c.initiatorKey = key →
    ∃ n, s.client? (ρ.client id) = some (c.relocate n (ρ.path c.path))
  noClient : ∀ id, s.keyOf (ρ.client id) = some key → r.keyOf id = some key
  path : ∀ id p, r.registry.path? id = some p → p.key = key →
    ∃ n, s.registry.path? (ρ.path id) = some { p with number := n, slots := p.slots.rename ρ.client }
  noPath : ∀ id, s.HasPath (ρ.path id) key → r.HasPath id key
  live : s.registry.live.lookup key = (r.registry.live.lookup key).map ρ.path

variable {r s : Relay} {key : PublicKey} {ρ : Renaming} {id : ClientId} {path : PathId} {c c' : Client}

namespace Alike

theorem keyOf_iff (h : Alike key ρ r s) (id : ClientId) :
    s.keyOf (ρ.client id) = some key ↔ r.keyOf id = some key := by
  refine ⟨h.noClient id, fun hid => ?_⟩
  obtain ⟨c, hc, hkey⟩ := keyOf_eq_some.mp hid
  obtain ⟨n, hs⟩ := h.client id c hc hkey
  exact keyOf_eq_some.mpr ⟨_, hs, hkey⟩

theorem hasPath (h : Alike key ρ r s) (hpath : r.HasPath path key) : s.HasPath (ρ.path path) key := by
  obtain ⟨p, hp, hkey⟩ := hpath
  obtain ⟨n, hs⟩ := h.path path p hp hkey
  exact ⟨_, hs, hkey⟩

/-- Who has which address on a path of the key. -/
theorem slots (h : Alike key ρ r s) (hpath : r.HasPath path key) :
    s.slots (ρ.path path) = (r.slots path).rename ρ.client := by
  obtain ⟨p, hp, hkey⟩ := hpath
  obtain ⟨n, hs⟩ := h.path path p hp hkey
  unfold Relay.slots
  rw [hp, hs]

theorem refl (key : PublicKey) (r : Relay) : Alike key .refl r r where
  service := rfl
  client _ c hc _ := ⟨c.connectionId, hc⟩
  noClient _ h := h
  path _ p hp _ := by
    have hslots : p.slots.rename Renaming.refl.client = p.slots := Slots.rename_id _
    exact ⟨p.number, by rw [hslots]; exact hp⟩
  noPath _ h := h
  live := (congrFun Option.map_id _).symm

theorem symm (h : Alike key ρ r s) : Alike key ρ.symm s r where
  service := h.service.symm
  client id c hc hkey := by
    obtain ⟨id, rfl⟩ := ρ.client.surjective id
    obtain ⟨d, hd, hdkey⟩ := keyOf_eq_some.mp (h.noClient id (keyOf_eq_some.mpr ⟨c, hc, hkey⟩))
    obtain ⟨n, hs⟩ := h.client id d hd hdkey
    cases hc.symm.trans hs
    refine ⟨d.connectionId, ?_⟩
    simp only [Renaming.symm, Equiv.symm_apply_apply, hd]
    simp [Client.relocate]
  noClient id hid := by
    obtain ⟨id, rfl⟩ := ρ.client.surjective id
    rw [h.keyOf_iff]
    simpa [Renaming.symm] using hid
  path id p hp hkey := by
    obtain ⟨id, rfl⟩ := ρ.path.surjective id
    obtain ⟨q, hq, hqkey⟩ := h.noPath id ⟨p, hp, hkey⟩
    obtain ⟨n, hs⟩ := h.path id q hq hqkey
    cases hp.symm.trans hs
    refine ⟨q.number, ?_⟩
    simp only [Renaming.symm, Equiv.symm_apply_apply, hq, Slots.rename_rename, Equiv.symm_comp_self,
      Slots.rename_id]
  noPath id hid := by
    obtain ⟨id, rfl⟩ := ρ.path.surjective id
    refine h.hasPath ?_
    simpa [Renaming.symm] using hid
  live := by
    rw [h.live, Option.map_map]
    simp [Renaming.symm]

/-- Nothing about other names matters than those of the key's clients and paths. -/
theorem congr {ρ' : Renaming} (h : Alike key ρ r s) (hr : r.census.Coherent)
    (hagrees : ρ.Agrees ρ' key r) : Alike key ρ' r s where
  service := h.service
  client id c hc hkey := by
    rw [hagrees.client id (keyOf_eq_some.mpr ⟨c, hc, hkey⟩),
      hagrees.path c.path (hkey ▸ hasPath_of_coherent hr hc)]
    exact h.client id c hc hkey
  noClient id hid := by
    -- The client is one of the key's under its first name.
    obtain ⟨other, hother⟩ := ρ.client.surjective (ρ'.client id)
    rw [← hother] at hid
    have hkey := h.noClient other hid
    rw [← hagrees.client other hkey] at hother
    rw [← ρ'.client.injective hother]
    exact hkey
  path id p hp hkey := by
    have hhouses := houses_of_coherent hr ⟨p, hp, hkey⟩
    have hslots : p.slots.rename ρ'.client = p.slots.rename ρ.client :=
      Slots.rename_congr _ _ fun a occupant hget => hagrees.client occupant <|
        hhouses a occupant <| by
          rw [Relay.slots, hp]
          exact hget
    rw [hagrees.path id ⟨p, hp, hkey⟩, hslots]
    exact h.path id p hp hkey
  noPath id hid := by
    obtain ⟨other, hother⟩ := ρ.path.surjective (ρ'.path id)
    rw [← hother] at hid
    have hkey := h.noPath other hid
    rw [← hagrees.path other hkey] at hother
    rw [← ρ'.path.injective hother]
    exact hkey
  live := by
    rw [h.live]
    refine Option.map_congr fun path hfound => (hagrees.path path ?_).symm
    obtain ⟨p, hp, hkey, -⟩ := hr.sound.path_of_lookup hfound
    exact ⟨p, hp, hkey⟩

/-- What is confined to another key goes unnoticed. -/
theorem of_confined {other : PublicKey} {r' : Relay} (h : Alike key ρ r s)
    (hconfined : Confined other r r') (hne : key ≠ other) : Alike key ρ r' s where
  service := h.service.trans hconfined.service.symm
  client id c hc hkey := h.client id c ((hconfined.client id c (hkey ▸ hne)).mp hc) hkey
  noClient id hid := by
    obtain ⟨c, hc, hkey⟩ := keyOf_eq_some.mp (h.noClient id hid)
    exact keyOf_eq_some.mpr ⟨c, (hconfined.client id c (hkey ▸ hne)).mpr hc, hkey⟩
  path id p hp hkey := h.path id p ((hconfined.path id p (hkey ▸ hne)).mp hp) hkey
  noPath id hid := by
    obtain ⟨p, hp, hkey⟩ := h.noPath id hid
    exact ⟨p, (hconfined.path id p (hkey ▸ hne)).mpr hp, hkey⟩
  live := by rw [h.live, hconfined.live key hne]

end Alike

/-- Two relays that are alike put off the same, under other names, since their queues were the given
ones. -/
structure Lockstep (key : PublicKey) (ρ : Renaming) (queue queue' : List Job) (r s : Relay) : Prop
    extends Alike key ρ r s where
  jobs : ∃ added, r.jobs.pending = queue ++ added ∧ s.jobs.pending = queue' ++ added.map ρ.job

variable {queue queue' : List Job}

/-- Paths stay with their keys if they are only changed. -/
theorem hasPath_congr {registry : Registry ClientId} {f : Path ClientId → Path ClientId} {p : Prop}
    [Decidable p] {other : PathId}
    (h : registry.path? other = if p then (r.registry.path? other).map f else r.registry.path? other)
    (hkey : ∀ q, (f q).key = q.key) :
    HasPath { r with registry := registry } other key ↔ r.HasPath other key := by
  unfold HasPath
  simp only [h]
  split
  · simp only [Option.map_eq_some_iff]
    constructor
    · rintro ⟨_, ⟨q, hq, rfl⟩, hqkey⟩
      exact ⟨q, hq, (hkey q).symm.trans hqkey⟩
    · rintro ⟨q, hq, hqkey⟩
      exact ⟨_, ⟨q, hq, rfl⟩, (hkey q).trans hqkey⟩
  · exact Iff.rfl

theorem hasPath_setSlots {other : PathId} {slots : Slots ClientId} :
    (r.setSlots path slots).HasPath other key ↔ r.HasPath other key :=
  hasPath_congr (Registry.path?_setSlots ..) fun _ => rfl

theorem hasPath_prune (path other : PathId) :
    HasPath { r with registry := (r.registry.prune path).2 } other key ↔ r.HasPath other key :=
  hasPath_congr (Registry.path?_prune_eq ..) fun _ => rfl

namespace Lockstep

/-! ### Single changes -/

theorem count (h : Lockstep key ρ queue queue' r s) (f g : Metrics → Metrics) :
    Lockstep key ρ queue queue' (r.count f) (s.count g) :=
  { h with }

/-- Changes of a client that agree on the clients of the key. -/
theorem modifyClient {f g : Client → Client} (h : Lockstep key ρ queue queue' r s)
    (hf : ∀ c, r.client? id = some c → (f c).initiatorKey = c.initiatorKey)
    (hg : ∀ c, s.client? (ρ.client id) = some c → (g c).initiatorKey = c.initiatorKey)
    (hfg : ∀ c n, r.client? id = some c → c.initiatorKey = key →
      ∃ n', g (c.relocate n (ρ.path c.path)) = (f c).relocate n' (ρ.path (f c).path)) :
    Lockstep key ρ queue queue' (r.modifyClient id f) (s.modifyClient (ρ.client id) g) := by
  refine { h with client := fun other c hc hkey => ?_, noClient := fun other hother => ?_ }
  · rw [client?_modifyClient] at hc
    rw [client?_modifyClient]
    by_cases heq : id = other
    · subst heq
      rw [if_pos rfl] at hc
      obtain ⟨d, hd, rfl⟩ := Option.map_eq_some_iff.mp hc
      obtain ⟨n, hs⟩ := h.client id d hd ((hf d hd).symm.trans hkey)
      obtain ⟨n', hg'⟩ := hfg d n hd ((hf d hd).symm.trans hkey)
      exact ⟨n', by rw [if_pos rfl, hs, Option.map_some, hg']⟩
    · rw [if_neg heq] at hc
      rw [if_neg (ρ.client.injective.ne heq)]
      exact h.client other c hc hkey
  · rw [keyOf_modifyClient hf]
    exact h.noClient other ((keyOf_modifyClient hg _).symm.trans hother)

/-- The same change, if it looks at neither path nor connection. -/
theorem modifyClient_same {f : Client → Client} (h : Lockstep key ρ queue queue' r s)
    (hhome : ∀ c, (f c).home = c.home)
    (hf : ∀ c n p, f (c.relocate n p) = (f c).relocate n p) :
    Lockstep key ρ queue queue' (r.modifyClient id f) (s.modifyClient (ρ.client id) f) :=
  h.modifyClient (fun c _ => Client.initiatorKey_of_home (hhome c))
    (fun c _ => Client.initiatorKey_of_home (hhome c))
    fun c n _ _ => ⟨n, by rw [hf, Client.path_of_home (hhome c)]⟩

theorem setClient (h : Lockstep key ρ queue queue' r s) (hid : r.keyOf id = some key)
    (hkey : c.initiatorKey = key) (n : Nat) :
    Lockstep key ρ queue queue' (r.setClient id c)
      (s.setClient (ρ.client id) (c.relocate n (ρ.path c.path))) := by
  have hof : ∀ {t : Relay} {other : ClientId} {d : Client}, t.keyOf other = some key →
      t.client? other = some d → c.initiatorKey = d.initiatorKey := by
    intro t other d hother hd
    rw [Relay.keyOf, hd, Option.map_some, Option.some.injEq] at hother
    exact hkey.trans hother.symm
  exact h.modifyClient (fun d hd => hof hid hd) (fun d hd => hof ((h.keyOf_iff id).mpr hid) hd)
    fun _ _ _ _ => ⟨n, rfl⟩

theorem dispatch (h : Lockstep key ρ queue queue' r s) (job : Job) :
    Lockstep key ρ queue queue' (r.dispatch job) (s.dispatch (ρ.job job)) := by
  obtain ⟨added, hr, hs⟩ := h.jobs
  refine { h with jobs := ⟨added ++ [job], ?_, ?_⟩ }
  · show r.jobs.pending ++ [job] = _
    rw [hr, List.append_assoc]
  · show s.jobs.pending ++ [ρ.job job] = _
    rw [hs, List.append_assoc, List.map_append]
    rfl

theorem setSlots (h : Lockstep key ρ queue queue' r s) (path : PathId) (slots : Slots ClientId) :
    Lockstep key ρ queue queue' (r.setSlots path slots)
      (s.setSlots (ρ.path path) (slots.rename ρ.client)) := by
  refine { h with path := fun other p hp hkey => ?_, noPath := fun other hother => ?_ }
  · replace hp : (r.registry.setSlots path slots).path? other = some p := hp
    show ∃ n, (s.registry.setSlots (ρ.path path) (slots.rename ρ.client)).path? (ρ.path other) = _
    rw [Registry.path?_setSlots] at hp ⊢
    by_cases heq : path = other
    · subst heq
      rw [if_pos rfl] at hp
      obtain ⟨q, hq, rfl⟩ := Option.map_eq_some_iff.mp hp
      obtain ⟨n, hs⟩ := h.path path q hq hkey
      exact ⟨n, by rw [if_pos rfl, hs]; rfl⟩
    · rw [if_neg heq] at hp
      rw [if_neg (ρ.path.injective.ne heq)]
      exact h.path other p hp hkey
  · rw [hasPath_setSlots] at hother ⊢
    exact h.noPath other hother

/-! ### Reaching clients -/

theorem close (h : Lockstep key ρ queue queue' r s) (id : ClientId) (code : CloseCode) :
    Lockstep key ρ queue queue' (r.close id code) (s.close (ρ.client id) code) :=
  h.modifyClient_same (fun _ => rfl) fun _ _ _ => rfl

theorem fail (h : Lockstep key ρ queue queue' r s) (id : ClientId) (e : ProtocolError) :
    Lockstep key ρ queue queue' (r.fail id e) (s.fail (ρ.client id) e) := by
  unfold Relay.fail
  dsimp only
  split
  · exact (h.count _ _).close id _
  · exact h.close id _

theorem notify (h : Lockstep key ρ queue queue' r s) (id : ClientId) (m : Message) :
    Lockstep key ρ queue queue' (r.notify id m) (s.notify (ρ.client id) m) := by
  have hinbox : Lockstep key ρ queue queue'
      (r.modifyClient id fun c => { c with inbox := c.inbox ++ [.notice m] })
      (s.modifyClient (ρ.client id) fun c => { c with inbox := c.inbox ++ [.notice m] }) :=
    h.modifyClient_same (fun _ => rfl) fun _ _ _ => rfl
  exact hinbox.dispatch (.deliver id)

theorem notifyAll (h : Lockstep key ρ queue queue' r s) (ids : List ClientId) (m : Message) :
    Lockstep key ρ queue queue' (r.notifyAll ids m) (s.notifyAll (ids.map ρ.client) m) := by
  induction ids generalizing r s with
  | nil => exact h
  | cons id rest ih => exact ih (h.notify id m)

theorem announce (h : Lockstep key ρ queue queue' r s) (hpath : r.HasPath path key) (role : Role)
    (m : Message) :
    Lockstep key ρ queue queue' (r.announce path role m) (s.announce (ρ.path path) role m) := by
  have hslots := h.slots hpath
  cases role with
  | initiator =>
    have hnotified := h.notifyAll ((r.slots path).responders.map Prod.snd) m
    unfold Relay.announce
    rw [hslots, Slots.responders_rename, List.map_map]
    rw [List.map_map] at hnotified
    exact hnotified
  | responder =>
    have hnotified := h.notifyAll (r.slots path).initiator.toList m
    unfold Relay.announce
    rw [hslots, Slots.initiator_rename, Option.toList_map]
    exact hnotified

theorem displace (h : Lockstep key ρ queue queue' r s) (id : ClientId) (displaced : Option ClientId) :
    Lockstep key ρ queue queue' (r.displace id displaced)
      (s.displace (ρ.client id) (displaced.map ρ.client)) := by
  cases displaced with
  | none => exact h
  | some other =>
    simp only [Relay.displace, Option.map_some, ρ.client.injective.eq_iff]
    split
    · exact h
    · exact h.close other _

end Lockstep

end Relay

end Rendezvous
