import Mathlib.Logic.Relation
import Rendezvous.Proofs.Path.Registry
import Rendezvous.Proofs.Relay.Run
import Rendezvous.Proofs.Relay.Steps

/-!
# The census of a relay

Most of what a relay does is traffic: numbers, inboxes, outboxes, metrics and jobs. The *census* is
the rest, that is the paths and what each client is apart from its traffic. This module says once what
a relay can do to its census, so that invariants of it need no handler any more.

* **`Census.Move`** — the changes of a census: a client joins, advances in the handshake, moves to the
  registered path of its key, gets its address, or leaves; addresses are freed; an empty path is
  taken out.
* **`census_perform`** — what an action does to the census is a sequence of moves, after the frame that
  the action hears, if any, has been counted.
* **`Census.Move.identity`** — no move touches what a client was created with, nor what its next frame
  has to carry.
-/

namespace Rendezvous

/-! ## Clients apart from their traffic -/

namespace Client

/-- A client apart from its traffic. -/
def standing (c : Client) : Client :=
  { c with nextNumber := ⟨0, 0⟩, inbox := [], outbox := .empty }

variable {c c' : Client}

@[simp] theorem standing_push (c : Client) (item : Outbound) : (c.push item).standing = c.standing :=
  rfl

theorem standing_pack {destination : Address} {m : Message} {frame : Bytes}
    (h : c.pack destination m = .ok (frame, c')) : c'.standing = c.standing := by
  obtain ⟨-, header, payload, next, -, -, -, -, rfl⟩ := pack_eq_ok.mp h
  rfl

theorem standing_send {m : Message} (h : c.send m = .ok c') : c'.standing = c.standing := by
  obtain ⟨-, frame, c₁, hpack, rfl⟩ := send_eq_ok.mp h
  rw [standing_push, standing_pack hpack]

theorem standing_deliverAll (deliveries : List Delivery) (c : Client) :
    (c.deliverAll deliveries).2.standing = c.standing := by
  induction deliveries generalizing c with
  | nil => rfl
  | cons d rest ih =>
    cases d with
    | relayed frame => rw [deliverAll, ih, standing_push]
    | notice m =>
      rw [deliverAll]
      cases hsend : c.send m with
      | ok c' => rw [ih, standing_send hsend]
      | error e => rfl

theorem standing_seated (c : Client) (a : Admission) (address : Address) (frame : Bytes) :
    (Relay.seated c a address frame).standing =
      { c.standing with phase := .seated a address } := by
  unfold Relay.seated
  simp only
  split <;> rfl

end Client

/-- How the phase of a client on the path of a key advances before the client has an address. -/
inductive Phase.Advances (service : Service) (key : PublicKey) : Phase → Phase → Prop where
  | greeted : Advances service key .fresh .greeted
  | introduced (own : PublicKey) : Advances service key .greeted (.introduced own)
  | initiator {expected : Option PublicKey} {permanent : KeyPair} (pingInterval : UInt32)
      (h : service.keyFor expected = .ok permanent) :
      Advances service key .greeted (.admitted ⟨.initiator, key, permanent, pingInterval⟩)
  | responder {expected : Option PublicKey} {permanent : KeyPair} (own : PublicKey)
      (pingInterval : UInt32) (h : service.keyFor expected = .ok permanent) :
      Advances service key (.introduced own)
        (.admitted ⟨.responder, own, permanent, pingInterval⟩)

namespace Client

variable {c c' : Client}

theorem standing_greet {service : Service} (h : c.greet = .ok c') :
    ∃ p, Phase.Advances service c.initiatorKey c.phase p ∧
      c'.standing = { c.standing with phase := p } := by
  obtain ⟨hphase, frame, c₁, hpack, rfl⟩ := greet_eq_ok.mp h
  have hc₁ := standing_pack hpack
  refine ⟨.greeted, hphase ▸ .greeted, ?_⟩
  rw [← hc₁]
  rfl

theorem standing_introduce {service : Service} {key : PublicKey} (h : c.introduce key = .ok c') :
    ∃ p, Phase.Advances service c.initiatorKey c.phase p ∧
      c'.standing = { c.standing with phase := p } := by
  obtain ⟨hphase, rfl⟩ := introduce_eq_ok.mp h
  exact ⟨.introduced key, hphase ▸ .introduced key, rfl⟩

theorem standing_authorize {service : Service} {auth : ClientAuth}
    (h : c.authorize service auth = .ok c') :
    ∃ p, Phase.Advances service c.initiatorKey c.phase p ∧
      c'.standing = { c.standing with phase := p } := by
  obtain ⟨role, key, permanent, hclaim, -, -, hkey, rfl⟩ := authorize_eq_ok.mp h
  refine ⟨_, ?_, rfl⟩
  unfold claimed? at hclaim
  split at hclaim
  · next hphase =>
    cases hclaim
    exact hphase ▸ .initiator auth.pingInterval hkey
  · next own hphase =>
    cases hclaim
    exact hphase ▸ .responder key auth.pingInterval hkey
  · cases hclaim

end Client

/-! ## The census and its moves -/

/-- The paths of a relay, and its clients apart from their traffic. -/
structure Census where
  service : Service
  registry : Registry ClientId
  client? : ClientId → Option Client

namespace Census

/-- Who has which address on a path. -/
def slots (s : Census) (path : PathId) : Slots ClientId :=
  match s.registry.path? path with
  | some p => p.slots
  | none => .empty

/-- Changes who has which address on a path. -/
def setSlots (s : Census) (path : PathId) (slots : Slots ClientId) : Census :=
  { s with registry := s.registry.setSlots path slots }

/-- Replaces the client of the given name. -/
def setClient (s : Census) (id : ClientId) (c : Client) : Census :=
  { s with client? := fun other =>
      if id = other then (s.client? other).map (fun _ => c) else s.client? other }

/-- Adds a client that has nothing on the relay yet but its path. -/
def join (s : Census) (id : ClientId) (c : Client) : Census :=
  { s with
    registry := (s.registry.getOrCreate c.initiatorKey).2
    client? := fun other =>
      if id = other then some { c with path := (s.registry.getOrCreate c.initiatorKey).1 }
      else s.client? other }

/-- Moves a client to the registered path of its key. -/
def rehome (s : Census) (id : ClientId) (c : Client) : Census :=
  setClient { s with registry := (s.registry.getOrCreate c.initiatorKey).2 } id
    { c with path := (s.registry.getOrCreate c.initiatorKey).1 }

/-- Whether a path may be joined: it is the registered one of the key, or one that was not taken
out. -/
def MayJoin (s : Census) (path : PathId) (key : PublicKey) : Prop :=
  (∀ p, s.registry.path? path = some p → p.orphan = false) ∨
    s.registry.live.lookup key = some path

/-- A change of a census. -/
inductive Move (s : Census) : Census → Prop where
  | join {id : ClientId} {c : Client} (hnew : s.client? id = none) (hphase : c.phase = .fresh)
      (hgone : c.gone = false) (hexpected : c.expected = none) : Move s (s.join id c)
  | advance {id : ClientId} {c : Client} {p : Phase} (hc : s.client? id = some c)
      (h : Phase.Advances s.service c.initiatorKey c.phase p) :
      Move s (s.setClient id { c with phase := p })
  | rehome {id : ClientId} {c : Client} {a : Admission} {p : Path ClientId}
      (hc : s.client? id = some c) (hphase : c.phase = .admitted a)
      (hgone : c.gone = false) (hp : s.registry.path? c.path = some p) (ho : p.orphan = true) :
      Move s (s.rehome id c)
  /-- A client gets an address, and nobody else does. -/
  | seat {id : ClientId} {c : Client} {a : Admission} {address : Address} {slots : Slots ClientId}
      (hc : s.client? id = some c) (hphase : c.phase = .admitted a) (hgone : c.gone = false)
      (hpath : s.MayJoin c.path c.initiatorKey) (hkind : address.kind = a.role.addressKind)
      (hslots : ∀ b, slots.get b = if b = address then some id else (s.slots c.path).get b) :
      Move s ((s.setSlots c.path slots).setClient id { c with phase := .seated a address })
  /-- Addresses are freed, and nobody gets one. -/
  | release {path : PathId} {slots : Slots ClientId}
      (h : ∀ a id, slots.get a = some id → (s.slots path).get a = some id) :
      Move s (s.setSlots path slots)
  /-- A client that has no address any more is gone. -/
  | leave {id : ClientId} {c : Client} (hc : s.client? id = some c)
      (h : c.isAuthenticated = true → (s.slots c.path).get c.id ≠ some id) :
      Move s (s.setClient id { c with gone := true })
  | prune (path : PathId) : Move s { s with registry := (s.registry.prune path).2 }

/-- Some changes of a census, one after the other. -/
abbrev Moves : Census → Census → Prop := Relation.ReflTransGen Move

theorem Moves.of_eq {s t : Census} (h : t = s) : Moves s t := h ▸ .refl

theorem client?_setClient_self {s : Census} {id : ClientId} {c c' : Client}
    (h : s.client? id = some c) : (s.setClient id c').client? id = some c' := by
  simp [setClient, h]

theorem client?_setClient_ne (s : Census) {id other : ClientId} (c : Client) (h : id ≠ other) :
    (s.setClient id c).client? other = s.client? other := by
  simp [setClient, h]

theorem setClient_eq_self {s : Census} {id : ClientId} {c : Client} (h : s.client? id = some c) :
    s.setClient id c = s := by
  have hclient : (s.setClient id c).client? = s.client? := by
    funext other
    by_cases heq : id = other
    · subst heq
      rw [client?_setClient_self h, h]
    · exact client?_setClient_ne s c heq
  calc s.setClient id c = { s with client? := (s.setClient id c).client? } := rfl
    _ = s := by rw [hclient]

/-! ## What no move touches -/

/-- What a client was created with, and what its next frame has to carry. -/
def identity (c : Client) : Client :=
  { c.standing with phase := .fresh, path := ⟨0⟩, gone := false }

variable {s t : Census} {id : ClientId} {c : Client}

theorem setClient_identity {other : ClientId} {c' d : Client} (hc' : s.client? other = some c')
    (hd : identity d = identity c') (hc : s.client? id = some c) :
    ∃ c₁, (s.setClient other d).client? id = some c₁ ∧ identity c₁ = identity c := by
  by_cases heq : other = id
  · subst heq
    rw [hc] at hc'
    cases hc'
    exact ⟨d, client?_setClient_self hc, hd⟩
  · exact ⟨c, (client?_setClient_ne s d heq).trans hc, rfl⟩

theorem Move.identity (m : Move s t) (hc : s.client? id = some c) :
    ∃ c', t.client? id = some c' ∧ Census.identity c' = Census.identity c := by
  cases m with
  | @join other d hnew _ _ _ =>
    have hne : other ≠ id := by
      rintro rfl
      rw [hnew] at hc
      cases hc
    exact ⟨c, (if_neg hne).trans hc, rfl⟩
  | advance hc' _ => exact setClient_identity hc' rfl hc
  | @rehome other d a p hc' _ _ _ _ => exact setClient_identity hc' rfl hc
  | @seat other d a address slots hc' _ _ _ _ _ => exact setClient_identity hc' rfl hc
  | release _ => exact ⟨c, hc, rfl⟩
  | leave hc' _ => exact setClient_identity hc' rfl hc
  | prune _ => exact ⟨c, hc, rfl⟩

theorem Move.newcomer (m : Move s t) (h : s.client? id = none) (hc : t.client? id = some c) :
    c.expected = none := by
  cases m with
  | @join other d _ _ _ hexpected =>
    simp only [Census.join] at hc
    split at hc
    · cases hc
      exact hexpected
    · cases h.symm.trans hc
  | _ => simp [Census.rehome, setClient, setSlots, h] at hc

/-- **No move touches an identity.** A client that comes with a move is one from which no frame was
read. -/
theorem Moves.identity (m : Moves s t) (id : ClientId) :
    (∀ c, s.client? id = some c →
      ∃ c', t.client? id = some c' ∧ Census.identity c' = Census.identity c) ∧
    (s.client? id = none → ∀ c, t.client? id = some c → c.expected = none) := by
  induction m with
  | refl =>
    refine ⟨fun c hc => ⟨c, hc, rfl⟩, fun h c hc => ?_⟩
    rw [h] at hc
    cases hc
  | @tail u t _ m ih =>
    refine ⟨fun c hc => ?_, fun h c hc => ?_⟩
    · obtain ⟨c', hc', heq'⟩ := ih.1 c hc
      obtain ⟨c'', hc'', heq''⟩ := m.identity hc'
      exact ⟨c'', hc'', heq''.trans heq'⟩
    · cases hu : u.client? id with
      | some c' =>
        obtain ⟨c'', hc'', heq⟩ := m.identity hu
        rw [hc] at hc''
        cases hc''
        exact (congrArg Client.expected heq).trans (ih.2 h c' hu)
      | none => exact m.newcomer hu hc

end Census

/-! ## Traffic

None of these changes the census. -/

namespace Relay

/-- The census of a relay. -/
def census (r : Relay) : Census :=
  ⟨r.service, r.registry, fun id => (r.client? id).map Client.standing⟩

theorem census_client? {r : Relay} {id : ClientId} {c : Client} (h : r.client? id = some c) :
    r.census.client? id = some c.standing := by
  simp [census, h]

theorem census_setClient (r : Relay) (id : ClientId) (c : Client) :
    (r.setClient id c).census = r.census.setClient id c.standing := by
  have hclient : ∀ other, ((r.setClient id c).client? other).map Client.standing =
      (r.census.setClient id c.standing).client? other := by
    intro other
    rw [client?_setClient]
    by_cases heq : id = other <;> simp [heq, census, Census.setClient, Function.comp_def]
  exact congrArg (Census.mk r.service r.registry) (funext hclient)

theorem census_modifyClient {r : Relay} {id : ClientId} {f : Client → Client}
    (h : ∀ c, (f c).standing = c.standing) : (r.modifyClient id f).census = r.census := by
  have hclient : ∀ other, ((r.modifyClient id f).client? other).map Client.standing =
      (r.client? other).map Client.standing := by
    intro other
    rw [client?_modifyClient]
    split
    · simp [Function.comp_def, h]
    · rfl
  exact congrArg (Census.mk r.service r.registry) (funext hclient)

theorem census_setClient_same {r : Relay} {id : ClientId} {c c' : Client}
    (hc : r.client? id = some c) (h : c'.standing = c.standing) :
    (r.setClient id c').census = r.census := by
  rw [census_setClient, h]
  exact Census.setClient_eq_self (census_client? hc)

theorem census_close (r : Relay) (id : ClientId) (code : CloseCode) :
    (r.close id code).census = r.census :=
  census_modifyClient fun _ => rfl

theorem census_count (r : Relay) (f : Metrics → Metrics) : (r.count f).census = r.census := rfl

theorem census_fail (r : Relay) (id : ClientId) (e : ProtocolError) :
    (r.fail id e).census = r.census := by
  unfold fail
  rw [census_close]
  split <;> rfl

theorem census_notify (r : Relay) (id : ClientId) (m : Message) :
    (r.notify id m).census = r.census := by
  show (r.modifyClient id _).census = r.census
  exact census_modifyClient fun _ => rfl

theorem census_notifyAll (r : Relay) (ids : List ClientId) (m : Message) :
    (r.notifyAll ids m).census = r.census := by
  induction ids generalizing r with
  | nil => rfl
  | cons id ids ih => exact (ih (r.notify id m)).trans (census_notify r id m)

theorem census_announce (r : Relay) (path : PathId) (role : Role) (m : Message) :
    (r.announce path role m).census = r.census := by
  cases role <;> exact census_notifyAll ..

theorem census_displace (r : Relay) (id : ClientId) (displaced : Option ClientId) :
    (r.displace id displaced).census = r.census := by
  unfold displace
  split
  · split
    · rfl
    · exact census_close ..
  · rfl

theorem census_forward (r : Relay) (id : ClientId) (frame : Bytes) :
    (r.forward id frame).2.census = r.census := by
  unfold forward
  split
  · rfl
  · next c hc =>
    apply census_setClient_same hc
    split <;> rfl

theorem census_passOn (r : Relay) (path : PathId) (h : Header) (frame : Bytes) :
    (r.passOn path h frame).2.census = r.census := by
  unfold passOn
  split
  · exact census_forward ..
  · rfl

theorem census_update (r : Relay) (id : ClientId) {f : Client → Except ProtocolError Client}
    (h : ∀ c c', f c = .ok c' → c'.standing = c.standing) : (r.update id f).2.census = r.census := by
  rcases update_cases r id f with ⟨-, heq⟩ | ⟨c, e, -, -, heq⟩ | ⟨c, c', hc, hf, heq⟩
  · rw [heq]
  · rw [heq]
  · rw [heq]
    exact census_setClient_same hc (h c c' hf)

theorem census_refuse (r : Relay) (id : ClientId) (h : Header) :
    (r.refuse id h).2.census = r.census := by
  rcases refuse_cases r id h with ⟨f, -, heq⟩ | ⟨c, e, -, -, heq⟩ |
    ⟨c, reply, c', f, hc, hpack, heq⟩
  · rw [heq, census_count]
  · rw [heq]
  · have hstanding : (c'.push (.binary reply)).standing = c.standing := by
      rw [Client.standing_push, Client.standing_pack hpack]
    rw [heq, census_count, census_setClient_same hc hstanding]

theorem census_handleRaw (r : Relay) (id : ClientId) (c : Client) (h : Header) (frame : Bytes) :
    (r.handleRaw id c h frame).2.census = r.census := by
  have hpass := census_passOn r c.path h frame
  unfold handleRaw
  split
  · split
    · next s hs =>
      rw [hs] at hpass
      exact hpass
    · next s hs =>
      rw [hs] at hpass
      exact (census_refuse s id h).trans hpass
  · rfl

/-! ## Handlers as moves -/

open Census (Move Moves)

theorem of_census_client? {r : Relay} {id : ClientId} {c : Client}
    (h : r.census.client? id = some c) : ∃ c', r.client? id = some c' ∧ c = c'.standing := by
  obtain ⟨c', hc', heq⟩ := Option.map_eq_some_iff.mp h
  exact ⟨c', hc', heq.symm⟩

theorem census_accept (r : Relay) (key : PublicKey) (subprotocol : String) (draw : Draw) :
    Move r.census (r.accept key subprotocol draw).2.census := by
  have hnew : r.census.client? ⟨r.clients.size⟩ = none := by simp [census, client?]
  have hjoin := Move.join (c := (r.newcomer ⟨0⟩ key subprotocol draw).standing) hnew rfl rfl rfl
  have hclient : ∀ other, ((r.accept key subprotocol draw).2.client? other).map Client.standing =
      (r.census.join ⟨r.clients.size⟩ (r.newcomer ⟨0⟩ key subprotocol draw).standing).client?
        other := by
    intro other
    rw [client?_accept]
    unfold Census.join
    dsimp only
    split <;> rfl
  have heq : (r.accept key subprotocol draw).2.census =
      r.census.join ⟨r.clients.size⟩ (r.newcomer ⟨0⟩ key subprotocol draw).standing :=
    congrArg (Census.mk r.service (r.registry.getOrCreate key).2) (funext hclient)
  exact heq ▸ hjoin

theorem moves_update (r : Relay) (id : ClientId) {f : Client → Except ProtocolError Client}
    (h : ∀ c c', f c = .ok c' → ∃ p, Phase.Advances r.service c.initiatorKey c.phase p ∧
      c'.standing = { c.standing with phase := p }) : Moves r.census (r.update id f).2.census := by
  rcases update_cases r id f with ⟨-, heq⟩ | ⟨c, e, -, -, heq⟩ | ⟨c, c', hc, hf, heq⟩
  · rw [heq]
  · rw [heq]
  · obtain ⟨p, hadvances, hstanding⟩ := h c c' hf
    rw [heq, census_setClient, hstanding]
    exact .single (.advance (census_client? hc) hadvances)

theorem moves_sendServerHello (r : Relay) (id : ClientId) :
    Moves r.census (r.sendServerHello id).2.census :=
  moves_update r id fun _ _ => Client.standing_greet

theorem moves_handleClientAuth (r : Relay) (id : ClientId) (auth : ClientAuth) :
    Moves r.census (r.handleClientAuth id auth).2.census := by
  obtain ⟨outcome, s, hs, heq⟩ := handleClientAuth_cases r id auth
  have hupdate := moves_update r id (f := fun c => c.authorize r.service auth)
    fun _ _ => Client.standing_authorize
  rw [hs] at hupdate
  rcases heq with heq | heq
  · rw [heq]
    exact hupdate
  · rw [heq]
    exact hupdate

theorem moves_handleDropResponder (r : Relay) (c : Client) (responder : Address)
    (reason : Option CloseCode) :
    Moves r.census (r.handleDropResponder c responder reason).2.census := by
  have hrelease : Move r.census (r.setSlots c.path ((r.slots c.path).del responder).2).census := by
    apply Move.release
    intro a id h
    rw [Slots.del, Slots.get_set] at h
    split at h
    · cases h
    · exact h
  rcases handleDropResponder_cases r c responder reason with ⟨-, heq⟩ | ⟨-, -, -, heq⟩ |
    ⟨other, f, -, -, -, heq⟩
  · rw [heq]
  · rw [heq]
    exact .single hrelease
  · rw [heq, census_count, census_close]
    exact .single hrelease

theorem moves_handle (r : Relay) (id : ClientId) (c : Client) (m : Message) :
    Moves r.census (r.handle id c m).2.census := by
  cases m with
  | clientHello key => exact moves_update r id fun _ _ => Client.standing_introduce
  | clientAuth auth => exact moves_handleClientAuth r id auth
  | dropResponder responder reason => exact moves_handleDropResponder r c responder reason
  | raw h frame => exact .of_eq (census_handleRaw r id c h frame)
  | _ => exact .refl

/-- On its way to an address a client comes to a path that it may join. -/
theorem moves_onLivePath {r : Relay} {id : ClientId} {c : Client} {a : Admission}
    (hc : r.client? id = some c) (hgone : c.gone = false) (hphase : c.phase = .admitted a) :
    Moves r.census (r.onLivePath id c).census ∧
      (r.onLivePath id c).census.client? id = some { c.standing with path := (r.livePath c).1 } ∧
      (r.onLivePath id c).census.MayJoin (r.livePath c).1 c.initiatorKey := by
  have hclient := census_client? hc
  rcases livePath_cases r c with ⟨heq, hlive⟩ | ⟨p, hp, ho, heq⟩
  · -- The client stays where it is.
    have hsame : (r.onLivePath id c).census = r.census := by
      rw [onLivePath, heq]
      exact census_setClient_same hc rfl
    rw [hsame, heq]
    exact ⟨.refl, hclient, .inl hlive⟩
  · -- Its path was taken out, and the registered one takes its place.
    have hrehome : (r.onLivePath id c).census = r.census.rehome id c.standing := by
      rw [onLivePath, heq, census_setClient]
      rfl
    rw [hrehome, heq]
    refine ⟨.single (.rehome hclient hphase hgone hp ho), ?_, .inr ?_⟩
    · exact Census.client?_setClient_self (s := { r.census with
        registry := (r.registry.getOrCreate c.initiatorKey).2 }) hclient
    · exact Registry.lookup_getOrCreate r.registry c.initiatorKey

/-- A seat that is given up again leaves its address free. -/
theorem move_seat_vacate {r r' : Relay} {path : PathId} {id : ClientId} {role : Role} {s : Seat}
    (h : r.seat path id role = .ok (s, r')) :
    Move r.census (r'.vacate path s.address id).2.census := by
  obtain ⟨slots, rfl, -, -, -, hslots⟩ := seat_eq_ok h
  have heq : ((r.setSlots path slots).vacate path s.address id).2.census = r.census.setSlots path
      (((r.setSlots path slots).slots path).removeIf s.address (· == id)).2 :=
    congrArg (fun registry => Census.mk r.service registry r.census.client?)
      (Registry.setSlots_setSlots ..)
  rw [heq]
  apply Move.release
  intro a other hget
  show (r.slots path).get a = some other
  rw [Slots.get_removeIf] at hget
  cases hp : r.registry.path? path with
  | none => simp [Relay.slots, setSlots, Registry.path?_setSlots, hp] at hget
  | some p =>
    rw [slots_setSlots slots (by simp [hp]), hslots s.address, hslots a] at hget
    -- Only the address of the seat differs, and it is free now.
    by_cases ha : a = s.address
    · simp [ha] at hget
    · rw [if_neg ha] at hget
      simpa [ha] using hget

theorem census_settled {r : Relay} {path : PathId} {id : ClientId} {c : Client} {a : Admission}
    {s : Seat} {frame : Bytes} : (r.settled path id c a s frame).census =
      r.census.setClient id { c.standing with phase := .seated a s.address } := by
  unfold settled
  rw [census_displace]
  show (announce _ path a.role _).census = _
  rw [census_announce, census_setClient, Client.standing_seated]

theorem moves_answer {r : Relay} {id : ClientId} {c : Client} {a : Admission}
    (hc : r.client? id = some c) (hgone : c.gone = false) (hphase : c.phase = .admitted a)
    (cookie : Cookie) : Moves r.census (r.answer id c a cookie).2.census := by
  obtain ⟨hmoves, hseatless, hjoin⟩ := moves_onLivePath hc hgone hphase
  rcases answer_cases r id c a cookie with ⟨e, -, heq⟩ | ⟨s, r', e, hseat, -, heq⟩ |
    ⟨s, r', frame, c', hseat, hpack, heq⟩
  · rw [heq]
    exact hmoves
  · rw [heq]
    exact hmoves.tail (move_seat_vacate hseat)
  · obtain ⟨slots, rfl, hkind, -, -, hslots⟩ := seat_eq_ok hseat
    have hstanding : c'.standing = { c.standing with path := (r.livePath c).1 } :=
      Client.standing_pack hpack
    rw [heq, census_settled, hstanding]
    exact hmoves.tail (.seat hseatless hphase hgone hjoin hkind hslots)

theorem moves_sendServerAuth (r : Relay) (id : ClientId) :
    Moves r.census (r.sendServerAuth id).2.census := by
  rcases sendServerAuth_cases r id with ⟨outcome, heq⟩ | ⟨c, a, e, hc, hgone, hphase, -, heq⟩
  · rw [heq]
  · rw [heq]
    exact moves_answer hc hgone hphase e.cookie

theorem move_vacate (r : Relay) (path : PathId) (address : Address) (id : ClientId) :
    Move r.census (r.vacate path address id).2.census := by
  have hget : ∀ a other, ((r.slots path).removeIf address (· == id)).2.get a = some other →
      (r.slots path).get a = some other := by
    intro a other h
    rw [Slots.get_removeIf] at h
    split at h
    · cases h
    · exact h
  exact .release hget

theorem moves_leave {r : Relay} {id : ClientId} {c : Client} (hc : r.client? id = some c)
    (h : c.isAuthenticated = true → (r.slots c.path).get c.id ≠ some id) :
    Moves r.census { r.setClient id { c with gone := true } with
      registry := (r.registry.prune c.path).2 }.census := by
  have hleave : Move r.census (r.setClient id { c with gone := true }).census :=
    census_setClient r id _ ▸ .leave (census_client? hc) h
  exact (Relation.ReflTransGen.single hleave).tail (.prune c.path)

theorem moves_departed {r : Relay} {id : ClientId} {c : Client} (hc : r.client? id = some c) :
    Moves r.census (r.departed id c).census := by
  unfold departed
  cases ha : c.isAuthenticated with
  | false => exact moves_leave hc (by simp [ha])
  | true =>
    -- The address is given up first: a client that has one cannot leave.
    have hleave := moves_leave (r := (r.vacate c.path c.id id).2) hc (by simp [get_vacate])
    exact hleave.head (move_vacate r c.path c.id id)

theorem moves_disconnected (r : Relay) (id : ClientId) :
    Moves r.census (r.disconnected id).2.census := by
  rcases disconnected_cases r id with ⟨-, heq⟩ | ⟨c, outcome, hc, -, heq⟩ |
    ⟨c, role, outcome, hc, -, -, -, heq⟩
  · rw [heq]
  · rw [heq]
    exact moves_departed hc
  · rw [heq, census_announce]
    exact moves_departed hc

theorem moves_runJob (r : Relay) (job : Job) : Moves r.census (r.runJob job).census := by
  cases job with
  | answer id =>
    obtain ⟨outcome, s, hs, heq⟩ := runJob_answer_cases r id
    have h := moves_sendServerAuth r id
    rw [hs] at h
    rcases heq with heq | ⟨e, heq⟩
    · rw [heq]
      exact h
    · rw [heq, census_fail]
      exact h
  | deliver id =>
    have hdeliver : ∀ c, r.client? id = some c →
        (r.setClient id c.deliverInbox.2).census = r.census := fun c hc =>
      census_setClient_same hc (Client.standing_deliverAll c.inbox c)
    rcases runJob_deliver_cases r id with heq | ⟨c, hc, heq | ⟨e, heq⟩⟩
    · rw [heq]
    · rw [heq, hdeliver c hc]
    · rw [heq, census_fail, hdeliver c hc]

/-! ## Steps as moves -/

/-- A relay after a frame of a client, if it is acceptable, was counted. -/
def hear (r : Relay) (id : ClientId) (frame : Bytes) : Relay :=
  (r.update id fun c => Prod.snd <$> c.unpack frame).2

/-- A relay after the frame that an action brings, if any, was counted. -/
def heard (r : Relay) : Action → Relay
  | .receive id frame | .unpack id frame => r.hear id frame
  | _ => r

/-- A frame that is not accepted for the server changes nothing before it is handled, and one that is
changes what the next frame has to carry. -/
theorem hear_cases (r : Relay) (id : ClientId) (frame : Bytes) :
    (r.hear id frame = r ∧ ∀ c, r.client? id = some c → c.accepts? frame = none) ∨
    (∃ c f next, r.client? id = some c ∧ c.accepts? frame = some f ∧
      c.acceptHeader f.header = .ok next ∧
      r.hear id frame = r.setClient id { c with expected := some next }) := by
  unfold hear
  rcases update_cases r id fun c => Prod.snd <$> c.unpack frame with
    ⟨hnone, heq⟩ | ⟨c, e, hc, hf, heq⟩ | ⟨c, c', hc, hf, heq⟩
  · exact .inl ⟨by rw [heq], fun c hc => by cases hnone.symm.trans hc⟩
  · refine .inl ⟨by rw [heq], fun d hd => Option.eq_none_iff_forall_ne_some.mpr fun f haccepts => ?_⟩
    cases hc.symm.trans hd
    obtain ⟨-, -, m, c', hu⟩ := Client.accepts?_eq_some.mp haccepts
    rw [hu] at hf
    cases hf
  · obtain ⟨⟨m, c''⟩, hu, rfl⟩ := map_eq_ok.mp hf
    rcases Client.unpack_cases hu with ⟨hnone, rfl⟩ | ⟨f, next, haccepts, haccept, rfl⟩
    · refine .inl ⟨by rw [heq, setClient_eq_self hc], fun d hd => ?_⟩
      cases hc.symm.trans hd
      exact hnone
    · exact .inr ⟨c, f, next, hc, haccepts, haccept, by rw [heq]⟩

theorem moves_received (r : Relay) (id : ClientId) (frame : Bytes) :
    Moves (r.hear id frame).census (r.received id frame).2.census := by
  unfold hear received update
  cases r.client? id with
  | none => exact .refl
  | some c =>
    cases hu : c.unpack frame with
    | error e =>
      simp only [hu]
      exact .refl
    | ok result =>
      simp only [hu]
      exact moves_handle ..

/-- **Steps are moves.** Apart from the frame that it brings, an action only moves the census. -/
theorem census_perform (r : Relay) (a : Action) : Moves (r.heard a).census (r.perform a).census := by
  cases a with
  | accept key subprotocol draw => exact .single (census_accept r key subprotocol draw)
  | greet id => exact moves_sendServerHello r id
  | receive id frame => exact moves_received r id frame
  | unpack id frame => exact .refl
  | pack id destination m =>
    refine .of_eq (census_update r id fun c c' h => ?_)
    obtain ⟨result, hpack, rfl⟩ := map_eq_ok.mp h
    exact Client.standing_pack hpack
  | send id m => exact .of_eq (census_update r id fun _ _ => Client.standing_send)
  | answer id => exact moves_sendServerAuth r id
  | disconnect id => exact moves_disconnected r id
  | runJob place =>
    simp only [heard, perform]
    split
    · next job jobs _ => exact moves_runJob { r with jobs := jobs } job
    · exact .refl
  | fail id e => exact .of_eq (census_fail r id e)
  | close id code => exact .of_eq (census_close r id code)
  | collect id => exact .of_eq (census_modifyClient fun _ => rfl)
  | hangUp id => exact .of_eq (census_modifyClient fun _ => rfl)

end Relay

end Rendezvous
