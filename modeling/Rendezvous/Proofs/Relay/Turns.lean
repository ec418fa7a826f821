import Mathlib.Data.List.Nodup
import Rendezvous.Proofs.Relay.Accounts

/-!
# How clients come to know of each other

Who has which address changes in four ways: a client is seated, departs, is dropped, or takes the
initiator's address in vain. This module says once, for each way, who is told of it and what; all that
is left out is the traffic of single clients.

* **`Event.isNews`** — the events that are about others, or settle what a client is to them.
* **`Relay.Turn`** — what an action does to the addresses, and its news.
* **`turn_perform`** — each action takes one turn.
-/

namespace Rendezvous

theorem Address.eq_initiator {a : Address} (h : a.kind = .initiator) : a = .initiator := by
  unfold kind at h
  split at h
  · cases h
  · split at h
    · next heq => exact heq
    · cases h

/-- An address that is neither the server's nor of one kind is of the other one. -/
theorem Address.isResponder_of_ne {a : Address} (hserver : a.kind ≠ .server)
    (h : a.kind ≠ .initiator) : a.isResponder = true := by
  rw [isResponder_iff]
  cases ha : a.kind with
  | server => exact absurd ha hserver
  | initiator => exact absurd ha h
  | responder => rfl

theorem Address.eq_initiator_of_ne {a : Address} (hserver : a.kind ≠ .server)
    (h : a.kind ≠ .responder) : a = .initiator := by
  refine eq_initiator ?_
  cases ha : a.kind with
  | server => exact absurd ha hserver
  | initiator => rfl
  | responder => exact absurd ha h

/-! ## News -/

/-- Whether an event is about others, or settles what a client is to them. -/
def Event.isNews : Event → Bool
  | .introduced _ | .admitted _ | .dropped _ | .answered .. | .told .. | .relayed .. => true
  | _ => false

namespace Journal

def news (j : Journal) : Journal :=
  j.filter fun entry => entry.2.isNews

@[simp] theorem news_nil : news [] = [] := rfl

@[simp] theorem news_append (j j' : Journal) : news (j ++ j') = j.news ++ j'.news :=
  List.filter_append ..

theorem news_map (id : ClientId) (es : List Event) :
    news (es.map (id, ·)) = (es.filter Event.isNews).map (id, ·) := by
  simp only [news, List.filter_map]
  rfl

theorem of_news (j : Journal) (id : ClientId) : j.news.of id = (j.of id).filter Event.isNews := by
  induction j with
  | nil => rfl
  | cons entry rest ih =>
    obtain ⟨other, e⟩ := entry
    have hnews : news ((other, e) :: rest) =
        (if e.isNews then [(other, e)] else []) ++ news rest := by
      unfold news
      rw [List.filter_cons]
      split <;> rfl
    rw [of_cons, hnews, of_append, List.filter_append, ih]
    by_cases hid : other = id <;> by_cases he : e.isNews = true <;> simp [hid, he, of]

end Journal

theorem Client.news_recordDelivery (deliveries : List Delivery) (c : Client) :
    (c.recordDelivery deliveries).filter Event.isNews = [] := by
  induction deliveries generalizing c with
  | nil => rfl
  | cons d rest ih =>
    cases d with
    | relayed frame =>
      rw [recordDelivery, List.filter_cons_of_neg Bool.false_ne_true]
      exact ih _
    | notice m =>
      rw [recordDelivery]
      split
      · rw [List.filter_cons_of_neg Bool.false_ne_true]
        exact ih _
      · rfl

theorem Admission.news_recordPings (a : Admission) : a.recordPings.filter Event.isNews = [] := by
  unfold recordPings
  split <;> rfl

/-- An action may have the server answer a client: it is to do just that, or to run a job. -/
def Action.Answers (act : Action) (id : ClientId) : Prop :=
  act = .answer id ∨ ∃ place, act = .runJob place

namespace Relay

variable {r s t : Relay} {id : ClientId} {c c' : Client} {act : Action}

theorem news_note {f : Client → List Event} (h : ∀ c, (f c).filter Event.isNews = []) :
    (r.note id f).news = [] := by
  unfold note
  split
  · next c _ =>
    rw [Journal.news_map, h c]
    rfl
  · rfl

theorem news_whenOk {α : Type} {x : Except ProtocolError α} {f : α → List Event}
    (h : ∀ a, (f a).filter Event.isNews = []) : (whenOk x f).filter Event.isNews = [] := by
  unfold whenOk
  split
  · next a => exact h a
  · rfl

theorem news_recordAnnouncement (path : PathId) (role : Role) (m : Message)
    (seats : Slots ClientId) :
    (r.recordAnnouncement path role m seats).news = r.recordAnnouncement path role m seats := by
  unfold Journal.news recordAnnouncement
  rw [List.filter_map]
  congr 1
  exact List.filter_eq_self.mpr fun _ _ => rfl

theorem news_recordDisplacement (displaced : Option ClientId) :
    (recordDisplacement id displaced).news = [] := by
  unfold recordDisplacement
  split
  · split <;> rfl
  · rfl

theorem news_recordSeating (path : PathId) (a : Admission) (seat : Seat) (auth : ServerAuth)
    (frame : Bytes) : (r.recordSeating path id a seat auth frame).news =
      (id, .answered auth (r.slots path) frame) ::
        r.recordAnnouncement path a.role (joined a.role seat.address) (r.slots path) := by
  unfold recordSeating
  rw [Journal.news_append, Journal.news_append, Journal.news_map, news_recordAnnouncement,
    news_recordDisplacement, List.filter_cons_of_pos rfl, Admission.news_recordPings,
    List.append_nil]
  rfl

/-! ## Addresses -/

/-- Everybody has the address that he had. -/
def SameSlots (r s : Relay) : Prop :=
  ∀ path a, (s.slots path).get a = (r.slots path).get a

/-- One address is freed, if it was taken. -/
def Frees (r s : Relay) (path : PathId) (address : Address) : Prop :=
  ∀ other a, (s.slots other).get a =
    if path = other ∧ a = address then none else (r.slots other).get a

theorem slots_of_registry (h : s.registry = r.registry) (path : PathId) :
    s.slots path = r.slots path := by
  rw [slots, h, slots]

theorem SameSlots.of_registry (h : s.registry = r.registry) : SameSlots r s :=
  fun path a => by rw [slots_of_registry h]

theorem SameSlots.trans (h : SameSlots r s) (h' : SameSlots s t) : SameSlots r t :=
  fun path a => (h' path a).trans (h path a)

theorem Frees.get_eq_some {path : PathId} {address : Address} (h : Frees r s path address)
    {other : PathId} {a : Address} (hget : (s.slots other).get a = some id) :
    ¬ (path = other ∧ a = address) ∧ (r.slots other).get a = some id := by
  rw [h] at hget
  split at hget
  · cases hget
  · next hne => exact ⟨hne, hget⟩

/-- Where somebody is seated, everybody else had his address before. -/
theorem get_of_seated {path : PathId} {address : Address} {who : ClientId}
    (h : ∀ other a, (s.slots other).get a =
      if path = other ∧ a = address then some who else (r.slots other).get a)
    {other : PathId} {a : Address} (hget : (s.slots other).get a = some id) (hne : who ≠ id) :
    (r.slots other).get a = some id := by
  rw [h] at hget
  split at hget
  · exact absurd (Option.some.inj hget) hne
  · exact hget

theorem get_new (service : Service) (path : PathId) (a : Address) :
    ((new service).slots path).get a = none := by
  have hnone : (new service).registry.path? path = none := by
    simp [new, Registry.empty, Registry.path?]
  exact slots_of_none hnone a

theorem registry_update (r : Relay) (id : ClientId) (f : Client → Except ProtocolError Client) :
    (r.update id f).2.registry = r.registry := by
  rcases update_cases r id f with ⟨-, heq⟩ | ⟨c, e, -, -, heq⟩ | ⟨c, c', -, -, heq⟩
  · rw [heq]
  · rw [heq]
  · rw [heq]
    rfl

theorem registry_fail (r : Relay) (id : ClientId) (e : ProtocolError) :
    (r.fail id e).registry = r.registry :=
  congrArg Census.registry (census_fail r id e)

theorem registry_runJob_deliver (r : Relay) (id : ClientId) :
    (r.runJob (.deliver id)).registry = r.registry := by
  rcases runJob_deliver_cases r id with heq | ⟨c, -, heq | ⟨e, heq⟩⟩
  · rw [heq]
  · rw [heq]
    rfl
  · rw [heq, registry_fail]
    rfl

/-- Nobody is on a path that was just created. -/
theorem sameSlots_pathFor (r : Relay) (key : PublicKey) : SameSlots r (r.pathFor key).2 := by
  intro path a
  have hpath : ∀ p, (r.pathFor key).2.registry.path? path = some p →
      p.slots.get a = (r.slots path).get a := by
    intro p hp
    rcases Registry.path?_getOrCreate.mp hp with hold | ⟨-, rfl, rfl⟩
    · rw [slots, hold]
    · have hnone : r.registry.path? ⟨r.registry.paths.size⟩ = none := by simp [Registry.path?]
      rw [slots_of_none hnone]
      exact Slots.get_empty a
  cases hp : (r.pathFor key).2.registry.path? path with
  | some p =>
    rw [slots, hp]
    exact hpath p hp
  | none =>
    rw [slots_of_none hp]
    cases hold : r.registry.path? path with
    | none => rw [slots_of_none hold]
    | some q =>
      have hkept : (r.pathFor key).2.registry.path? path = some q :=
        Registry.path?_getOrCreate.mpr (.inl hold)
      cases hp.symm.trans hkept

theorem sameSlots_onLivePath (r : Relay) (id : ClientId) (c : Client) :
    SameSlots r (r.onLivePath id c) := by
  have hlive : SameSlots r (r.livePath c).2 := by
    rcases livePath_cases r c with ⟨heq, -⟩ | ⟨p, -, -, heq⟩
    · rw [heq]
      exact fun _ _ => rfl
    · rw [heq]
      exact sameSlots_pathFor r c.initiatorKey
  exact hlive.trans (.of_registry rfl)

theorem sameSlots_prune (r : Relay) (path : PathId) :
    SameSlots r { r with registry := (r.registry.prune path).2 } := by
  intro other a
  unfold slots
  rcases Registry.path?_prune r.registry path other with heq | ⟨p, hp, -, heq⟩
  · rw [heq]
  · rw [heq, hp]

/-! ## Turns -/

/-- What an action does to the addresses, with its news. -/
inductive Turn (r : Relay) (act : Action) : Journal → Relay → Prop where
  | quiet {s : Relay} (h : SameSlots r s) : Turn r act [] s
  | introduce {id : ClientId} {bytes : Bytes} {key : PublicKey} {c c₁ c₂ : Client} {s : Relay}
      (hact : act = .receive id bytes) (hc : r.client? id = some c)
      (hu : c.unpack bytes = .ok (.clientHello key, c₁)) (hok : c₁.introduce key = .ok c₂)
      (h : SameSlots r s) : Turn r act [(id, .introduced key)] s
  | authorize {id : ClientId} {bytes : Bytes} {auth : ClientAuth} {c c₁ c₂ : Client} {s : Relay}
      (hact : act = .receive id bytes) (hc : r.client? id = some c)
      (hu : c.unpack bytes = .ok (.clientAuth auth, c₁)) (hok : c₁.authorize r.service auth = .ok c₂)
      (h : SameSlots r s) : Turn r act [(id, .admitted auth)] s
  /-- A frame is handed over. -/
  | relay {id peer : ClientId} {frame : Bytes} {s : Relay} (hact : act = .receive id frame)
      (hto : r.Handover id peer frame) (h : SameSlots r s) :
      Turn r act [(peer, .relayed id frame)] s
  /-- An initiator has a responder's address freed. -/
  | drop {id : ClientId} {bytes : Bytes} {c c' : Client} {responder : Address}
      {reason : Option CloseCode} {s : Relay} (hact : act = .receive id bytes)
      (hc : r.client? id = some c) (hu : c.unpack bytes = .ok (.dropResponder responder reason, c'))
      (hauth : c.isAuthenticated = true) (hrole : c.role? = some .initiator)
      (h : Frees r s c.path responder) : Turn r act [(id, .dropped responder)] s
  /-- A client that cannot be answered has taken the initiator's address from whoever had it. -/
  | release {id : ClientId} {c : Client} {a : Admission} {path : PathId} {auth : ServerAuth}
      {e : ProtocolError} {s : Relay} (hc : r.client? id = some c) (hphase : c.phase = .admitted a)
      (hpack : { c with path := path }.pack .initiator (.serverAuth auth) = .error e)
      (h : Frees r s path .initiator) : Turn r act [] s
  /-- A client gets its address and is told who else is there, and the others are told of it. -/
  | seat {id : ClientId} {c : Client} {a : Admission} {path : PathId} {address : Address}
      {auth : ServerAuth} {frame : Bytes} {s : Relay} (hact : act.Answers id)
      (hc : r.client? id = some c) (hphase : c.phase = .admitted a) (hkind : address.kind = a.role.addressKind)
      (hfree : a.role = .responder → (r.slots path).get address = none)
      (h : ∀ other b, (s.slots other).get b =
        if path = other ∧ b = address then some id else (r.slots other).get b)
      (hside : auth.otherSide = s.otherSide path a.role) :
      Turn r act ((id, .answered auth (s.slots path) frame) ::
        s.recordAnnouncement path a.role (joined a.role address) (s.slots path)) s
  /-- A client gives its address up, and the others are told. -/
  | leave {id : ClientId} {c : Client} {role : Role} {s : Relay} (hact : act = .disconnect id)
      (hc : r.client? id = some c) (hauth : c.isAuthenticated = true)
      (hslot : (r.slots c.path).get c.id = some id) (hrole : c.role? = some role)
      (h : Frees r s c.path c.id) :
      Turn r act (s.recordAnnouncement c.path role (.disconnected c.id) (r.slots c.path)) s

variable {j : Journal}

/-- What clients do between themselves and the writers makes no difference to a turn. -/
theorem Turn.of_registry (h : Turn r act j s) (hregistry : t.registry = s.registry) :
    Turn r act j t := by
  have hslots : t.slots = s.slots := funext (slots_of_registry hregistry)
  have hsame : ∀ {u : Relay}, SameSlots u s → SameSlots u t := by
    intro u hu path a
    rw [hslots]
    exact hu path a
  have hfrees : ∀ {path : PathId} {a : Address}, Frees r s path a → Frees r t path a := by
    intro path a hs other b
    rw [hslots]
    exact hs other b
  have hannounced : ∀ path role m seats,
      s.recordAnnouncement path role m seats = t.recordAnnouncement path role m seats := by
    intro path role m seats
    unfold recordAnnouncement audience
    rw [hslots]
  cases h with
  | quiet h => exact .quiet (hsame h)
  | introduce hact hc hu hok h => exact .introduce hact hc hu hok (hsame h)
  | authorize hact hc hu hok h => exact .authorize hact hc hu hok (hsame h)
  | relay hact hto h => exact .relay hact hto (hsame h)
  | drop hact hc hu hauth hrole h => exact .drop hact hc hu hauth hrole (hfrees h)
  | release hc hphase hpack h => exact .release hc hphase hpack (hfrees h)
  | seat hact hc hphase hkind hfree h hside =>
    rw [hannounced, ← hslots]
    refine .seat hact hc hphase hkind hfree ?_ ?_
    · rw [hslots]
      exact h
    · unfold otherSide
      rw [hslots]
      exact hside
  | leave hact hc hauth hslot hrole h =>
    rw [hannounced]
    exact .leave hact hc hauth hslot hrole (hfrees h)

/-- Neither do the jobs that wait. -/
theorem Turn.of_jobs {jobs : JobQueue Job} (h : Turn { r with jobs := jobs } act j s) :
    Turn r act j s := by
  cases h with
  | quiet h => exact .quiet h
  | introduce hact hc hu hok h => exact .introduce hact hc hu hok h
  | authorize hact hc hu hok h => exact .authorize hact hc hu hok h
  | relay hact hto h =>
    obtain ⟨path, f, sender, receiver, hparse, ho⟩ := hto
    have ho' : r.HandsOver _ _ path f sender receiver :=
      ⟨ho.distinct, ho.sender_eq, ho.receiver_eq, ho.authenticated, ho.source, ho.destination,
        ho.ne_server, ho.roles⟩
    exact .relay hact ⟨path, f, sender, receiver, hparse, ho'⟩ h
  | drop hact hc hu hauth hrole h => exact .drop hact hc hu hauth hrole h
  | release hc hphase hpack h => exact .release hc hphase hpack h
  | seat hact hc hphase hkind hfree h hside => exact .seat hact hc hphase hkind hfree h hside
  | leave hact hc hauth hslot hrole h => exact .leave hact hc hauth hslot hrole h

/-! ## Every handler -/

/-- Where a client is seated on a path that exists. -/
theorem get_seated {path : PathId} {address : Address} {slots : Slots ClientId}
    (hsame : SameSlots r s) (hpath : (s.registry.path? path).isSome)
    (hslots : ∀ b, slots.get b = if b = address then some id else (s.slots path).get b)
    (other : PathId) (b : Address) : ((s.setSlots path slots).slots other).get b =
      if path = other ∧ b = address then some id else (r.slots other).get b := by
  by_cases hother : path = other
  · subst hother
    rw [slots_setSlots slots hpath, hslots, hsame]
    simp
  · rw [slots_setSlots_ne _ _ hother, hsame]
    simp [hother]

/-- A seat that is given up again is free. -/
theorem frees_unseated {path : PathId} {address : Address} {slots : Slots ClientId}
    (hsame : SameSlots r s) (hpath : (s.registry.path? path).isSome)
    (hslots : ∀ b, slots.get b = if b = address then some id else (s.slots path).get b) :
    Frees r ((s.setSlots path slots).vacate path address id).2 path address := by
  intro other b
  have hseated : ((s.setSlots path slots).slots path).get address = some id := by
    rw [get_seated hsame hpath hslots, if_pos ⟨rfl, rfl⟩]
  rw [get_vacate, hseated]
  by_cases heq : path = other ∧ b = address
  · rw [if_pos heq, if_pos ⟨heq.1, heq.2, rfl⟩]
  · rw [if_neg heq, if_neg fun hvacated => heq ⟨hvacated.1, hvacated.2.1⟩,
      get_seated hsame hpath hslots, if_neg heq]

/-- The path that a client joins exists. -/
theorem path?_onLivePath {a : Admission} (hr : r.census.Coherent) (hc : r.client? id = some c)
    (hgone : c.gone = false) (hphase : c.phase = .admitted a) :
    ((r.onLivePath id c).registry.path? (r.livePath c).1).isSome := by
  have hcoherent := (moves_onLivePath hc hgone hphase).1.coherent hr
  obtain ⟨p, hp, -⟩ := hcoherent.onPath id _ (census_client? (client?_onLivePath hc))
  exact Option.isSome_iff_exists.mpr ⟨p, hp⟩

theorem registry_settled (r : Relay) (path : PathId) (id : ClientId) (c : Client) (a : Admission)
    (s : Seat) (frame : Bytes) : (r.settled path id c a s frame).registry = r.registry :=
  congrArg Census.registry census_settled

theorem turn_answer {a : Admission} (hact : act.Answers id) (hr : r.census.Coherent) (hc : r.client? id = some c)
    (hgone : c.gone = false) (hphase : c.phase = .admitted a) (cookie : Cookie) :
    Turn r act (r.recordAnswer id c a cookie).news (r.answer id c a cookie).2 := by
  have hlive := sameSlots_onLivePath r id c
  have hpath := path?_onLivePath hr hc hgone hphase
  rcases recordAnswer_cases r id c a cookie with ⟨e, -, hrecord, heq⟩ |
    ⟨s, r', e, hseat, hpack, hrecord, heq⟩ | ⟨s, r', frame, c', hseat, -, hrecord, heq⟩
  · -- The path is full.
    rw [hrecord, heq]
    exact .quiet hlive
  · -- The client was seated, and cannot be answered.
    obtain ⟨slots, rfl, hkind, -, hfree, hslots⟩ := seat_eq_ok hseat
    rw [hrecord, heq]
    have hvacated := frees_unseated hlive hpath hslots
    cases hrole : a.role with
    | initiator =>
      rw [hrole] at hkind
      rw [Address.eq_initiator hkind] at hpack hvacated ⊢
      exact .release hc hphase hpack hvacated
    | responder =>
      -- A responder's address was free before.
      refine .quiet fun other b => ?_
      rw [hvacated other b]
      split
      · next heq =>
        obtain ⟨rfl, rfl⟩ := heq
        rw [← hlive]
        exact (hfree hrole).symm
      · rfl
  · obtain ⟨slots, rfl, hkind, -, hfree, hslots⟩ := seat_eq_ok hseat
    rw [hrecord, heq]
    refine Turn.of_registry ?_ (registry_settled ..)
    rw [news_recordSeating]
    refine .seat hact hc hphase hkind (fun hrole => ?_) (get_seated hlive hpath hslots) rfl
    rw [← hlive]
    exact hfree hrole

theorem turn_sendServerAuth (hact : act.Answers id) (hr : r.census.Coherent) :
    Turn r act (r.recordServerAuth id).news (r.sendServerAuth id).2 := by
  rcases recordServerAuth_cases r id with ⟨outcome, hrecord, heq, -⟩ |
    ⟨c, a, e, hc, hgone, hphase, -, hrecord, heq⟩
  · rw [hrecord, heq]
    exact .quiet fun _ _ => rfl
  · rw [hrecord, heq]
    exact turn_answer hact hr hc hgone hphase e.cookie

theorem turn_runJob (hr : r.census.Coherent) (place : Nat) (job : Job) :
    Turn r (.runJob place) (r.recordJob job).news (r.runJob job) := by
  cases job with
  | answer id =>
    have hanswer : Turn r (.runJob place) (r.recordServerAuth id).news (r.sendServerAuth id).2 :=
      turn_sendServerAuth (.inr ⟨place, rfl⟩) hr
    unfold recordJob runJob
    dsimp only
    cases hs : r.sendServerAuth id with
    | mk outcome s =>
      rw [hs] at hanswer
      rw [Journal.news_append]
      cases outcome with
      | ok _ =>
        rw [Journal.news_nil, List.append_nil]
        exact hanswer
      | error e =>
        have hclosed : Journal.news [(id, .ordered (.close e.closeCode))] = [] := rfl
        rw [hclosed, List.append_nil]
        exact hanswer.of_registry (registry_fail s id e)
  | deliver id =>
    have hnews : (r.recordJob (.deliver id)).news = [] :=
      news_note fun c => Client.news_recordDelivery c.inbox c
    rw [hnews]
    exact .quiet (.of_registry (registry_runJob_deliver r id))

theorem frees_departed (hauth : c.isAuthenticated = true)
    (hslot : (r.slots c.path).get c.id = some id) : Frees r (r.departed id c) c.path c.id := by
  intro other a
  unfold departed
  dsimp only
  rw [if_pos hauth, sameSlots_prune _ c.path other a, get_vacate]
  have hslot' : ((r.setClient id { c with gone := true }).slots c.path).get c.id = some id := hslot
  simp only [hslot', and_true]
  rfl

theorem sameSlots_departed (h : ¬ (c.isAuthenticated = true ∧ (r.slots c.path).get c.id = some id)) :
    SameSlots r (r.departed id c) := by
  intro other a
  unfold departed
  dsimp only
  rw [sameSlots_prune _ c.path other a]
  split
  · next hauth =>
    have hslot : ¬ ((r.setClient id { c with gone := true }).slots c.path).get c.id = some id :=
      fun hslot => h ⟨hauth, hslot⟩
    rw [get_vacate]
    simp only [hslot, and_false, if_false]
    rfl
  · rfl

theorem turn_disconnected (r : Relay) (id : ClientId) :
    Turn r (.disconnect id) (r.recordDeparture id).news (r.disconnected id).2 := by
  rcases recordDeparture_cases r id with ⟨-, hrecord, heq⟩ | ⟨c, outcome, hc, hnot, hrecord, heq⟩ |
    ⟨c, role, outcome, hc, hauth, hslot, hrole, hrecord, heq⟩
  · rw [hrecord, heq]
    exact .quiet fun _ _ => rfl
  · rw [hrecord, heq]
    exact .quiet (sameSlots_departed hnot)
  · have hannounced : ((r.departed id c).announce c.path role (.disconnected c.id)).registry =
        (r.departed id c).registry := congrArg Census.registry (census_announce ..)
    rw [hrecord, heq, news_recordAnnouncement]
    exact (Turn.leave rfl hc hauth hslot hrole (frees_departed hauth hslot)).of_registry hannounced

theorem news_recordRefusal (r : Relay) (id : ClientId) (h : Header) :
    (r.recordRefusal id h).news = [] :=
  news_note fun _ => news_whenOk fun _ => rfl

theorem news_recordRaw {h : Header} {frame : Bytes}
    (hslot : (r.slots c.path).get c.id = some id) : (r.recordRaw id c h frame).news =
      ((r.slots c.path).get h.destination).toList.map fun peer => (peer, .relayed id frame) := by
  have hrelayed : ∀ peers : List ClientId,
      Journal.news (peers.map fun peer => (peer, .relayed id frame)) =
        peers.map fun peer => (peer, .relayed id frame) := by
    intro peers
    unfold Journal.news
    rw [List.filter_map]
    congr 1
    exact List.filter_eq_self.mpr fun _ _ => rfl
  unfold recordRaw
  rw [if_pos hslot, Journal.news_append, hrelayed]
  split
  · rw [Journal.news_nil, List.append_nil]
  · rw [news_recordRefusal, List.append_nil]

theorem turn_handleRaw (hr : r.census.Coherent) (hc : r.client? id = some c) {frame : Bytes}
    {h : Header} (hu : c.unpack frame = .ok (.raw h frame, c')) :
    Turn r (.receive id frame) (r.recordRaw id c h frame).news (r.handleRaw id c h frame).2 := by
  have hregistry : (r.handleRaw id c h frame).2.registry = r.registry :=
    congrArg Census.registry (census_handleRaw r id c h frame)
  refine Turn.of_registry (s := r) ?_ hregistry
  by_cases hslot : (r.slots c.path).get c.id = some id
  · rw [news_recordRaw hslot]
    cases hpeer : (r.slots c.path).get h.destination with
    | none => exact .quiet fun _ _ => rfl
    | some peer => exact .relay rfl (handover_of_raw hr hc hu hslot hpeer) fun _ _ => rfl
  · have hnil : r.recordRaw id c h frame = [] := if_neg hslot
    rw [hnil]
    exact .quiet fun _ _ => rfl

theorem turn_handleDropResponder {bytes : Bytes} {responder : Address} {reason : Option CloseCode}
    (hc : r.client? id = some c) (hu : c.unpack bytes = .ok (.dropResponder responder reason, c')) :
    Turn r (.receive id bytes) ((r.setClient id c').recordDrop id c' responder reason).news
      ((r.setClient id c').handleDropResponder c' responder reason).2 := by
  -- Reading the frame has changed neither the client's phase nor its path.
  obtain ⟨hphase, hpath⟩ := Client.unpack_phase hu
  have hfrees : Frees r ((r.setClient id c').setSlots c'.path
      (((r.setClient id c').slots c'.path).del responder).2) c.path responder := by
    intro other a
    rw [get_del, hpath]
    rfl
  rcases handleDropResponder_cases (r.setClient id c') c' responder reason with ⟨hnot, heq⟩ |
    ⟨hauth, hrole, hget, heq⟩ | ⟨other, f, hauth, hrole, hget, heq⟩
  · have hnil : (r.setClient id c').recordDrop id c' responder reason = [] :=
      if_neg (by simpa using hnot)
    rw [hnil, heq]
    exact .quiet fun _ _ => rfl
  · have hdropped : ((r.setClient id c').recordDrop id c' responder reason).news =
        [(id, .dropped responder)] := by
      simp [recordDrop, hauth, hrole, hget, Journal.news, Event.isNews]
    rw [hdropped, heq]
    refine .drop rfl hc hu ?_ ?_ hfrees
    · rw [Client.isAuthenticated, ← hphase]
      exact hauth
    · rw [Client.role?, ← hphase]
      exact hrole
  · have hdropped : ((r.setClient id c').recordDrop id c' responder reason).news =
        [(id, .dropped responder)] := by
      simp [recordDrop, hauth, hrole, hget, Journal.news, Event.isNews]
    rw [hdropped, heq]
    refine Turn.of_registry (.drop rfl hc hu ?_ ?_ hfrees) rfl
    · rw [Client.isAuthenticated, ← hphase]
      exact hauth
    · rw [Client.role?, ← hphase]
      exact hrole

theorem turn_received (hr : r.census.Coherent) (id : ClientId) (bytes : Bytes) :
    Turn r (.receive id bytes) (r.recordFrame id bytes).news (r.received id bytes).2 := by
  have haccepted : (r.recordAcceptance id bytes).news = [] := by
    refine news_note fun c => ?_
    cases c.accepts? bytes <;> rfl
  unfold recordFrame received
  rw [Journal.news_append, haccepted, List.nil_append]
  cases hc : r.client? id with
  | none => exact .quiet fun _ _ => rfl
  | some c =>
    dsimp only
    cases hu : c.unpack bytes with
    | error e => exact .quiet fun _ _ => rfl
    | ok result =>
      obtain ⟨m, c'⟩ := result
      simp only [whenOk]
      cases m with
      | clientHello key =>
        have hsame : ((r.setClient id c').update id fun c => c.introduce key).2.registry =
            r.registry := registry_update ..
        unfold recordHandling handle
        dsimp only
        cases hok : c'.introduce key with
        | error e => exact .quiet (.of_registry hsame)
        | ok _ => exact .introduce rfl hc hu hok (.of_registry hsame)
      | clientAuth auth =>
        have hsame : ((r.setClient id c').handleClientAuth id auth).2.registry = r.registry := by
          obtain ⟨outcome, s, hs, heq⟩ := handleClientAuth_cases (r.setClient id c') id auth
          have hupdate := registry_update (r.setClient id c') id
            fun c => c.authorize (r.setClient id c').service auth
          rw [hs] at hupdate
          rcases heq with heq | heq
          · rw [heq]
            exact hupdate
          · rw [heq]
            exact hupdate
        unfold recordHandling handle
        dsimp only
        cases hok : c'.authorize (r.setClient id c').service auth with
        | error e => exact .quiet (.of_registry hsame)
        | ok _ => exact .authorize rfl hc hu hok (.of_registry hsame)
      | dropResponder responder reason => exact turn_handleDropResponder hc hu
      | raw h frame =>
        obtain ⟨-, -, -, rfl, rfl, -⟩ := unpack_raw hu
        rw [setClient_eq_self hc]
        exact turn_handleRaw hr hc hu
      | _ => exact .quiet fun _ _ => rfl

/-- **Each action takes one turn.** -/
theorem turn_perform (hr : r.census.Coherent) (act : Action) :
    Turn r act (r.record act).news (r.perform act) := by
  cases act with
  | accept key subprotocol draw => exact .quiet (sameSlots_pathFor r key)
  | greet id =>
    have hnews : (r.record (.greet id)).news = [] := by
      refine news_note fun c => ?_
      split
      · exact news_whenOk fun _ => rfl
      · rfl
    rw [hnews]
    exact .quiet (.of_registry (registry_update ..))
  | receive id bytes => exact turn_received hr id bytes
  | unpack id bytes =>
    have hnews : (r.record (.unpack id bytes)).news = [] := by
      refine news_note fun c => ?_
      cases c.accepts? bytes <;> rfl
    rw [hnews]
    exact .quiet (.of_registry (registry_update ..))
  | pack id destination m =>
    have hnews : (r.record (.pack id destination m)).news = [] :=
      news_note fun _ => news_whenOk fun _ => rfl
    rw [hnews]
    exact .quiet (.of_registry (registry_update ..))
  | send id m =>
    have hnews : (r.record (.send id m)).news = [] := news_note fun _ => news_whenOk fun _ => rfl
    rw [hnews]
    exact .quiet (.of_registry (registry_update ..))
  | answer id => exact turn_sendServerAuth (.inl rfl) hr
  | disconnect id => exact turn_disconnected r id
  | runJob place =>
    unfold record perform
    dsimp only
    cases r.jobs.takeAt place with
    | none => exact .quiet fun _ _ => rfl
    | some taken =>
      obtain ⟨job, jobs⟩ := taken
      have hr' : { r with jobs := jobs }.census.Coherent := hr
      exact (turn_runJob hr' place job).of_jobs
  | fail id e =>
    have hnews : (r.record (.fail id e)).news = [] := news_note fun _ => rfl
    rw [hnews]
    exact .quiet (.of_registry (registry_fail r id e))
  | close id code =>
    have hnews : (r.record (.close id code)).news = [] := news_note fun _ => rfl
    rw [hnews]
    exact .quiet fun _ _ => rfl
  | collect id =>
    have hnews : (r.record (.collect id)).news = [] := news_note fun _ => rfl
    rw [hnews]
    exact .quiet fun _ _ => rfl
  | hangUp id =>
    have hnews : (r.record (.hangUp id)).news = [] := news_note fun _ => rfl
    rw [hnews]
    exact .quiet fun _ _ => rfl

/-! ## Who is told -/

/-- Nobody has two addresses. -/
theorem address_unique (hr : r.census.Coherent) {path path' : PathId} {a a' : Address}
    (h : (r.slots path).get a = some id) (h' : (r.slots path').get a' = some id) :
    path = path' ∧ a = a' := by
  obtain ⟨p, c, hc, ho⟩ := occupant_of_get hr h
  obtain ⟨p', c', hc', ho'⟩ := occupant_of_get hr h'
  cases hc.symm.trans hc'
  exact ⟨ho.path_eq.symm.trans ho'.path_eq, ho.id_eq.symm.trans ho'.id_eq⟩

theorem kind_ne_server (hr : r.census.Coherent) {path : PathId} {a : Address}
    (h : (r.slots path).get a = some id) : a.kind ≠ .server := by
  obtain ⟨p, c, -, ho⟩ := occupant_of_get hr h
  intro hkind
  have hrole := ho.role
  rw [hkind] at hrole
  cases hc : c.role? with
  | none =>
    rw [hc] at hrole
    cases hrole
  | some role =>
    rw [hc] at hrole
    cases role <;> cases hrole

/-- What is said about someone is said to the other side of the path. -/
theorem mem_audience_iff (hr : r.census.Coherent) {path : PathId} {role : Role} :
    id ∈ r.audience path role ↔
      ∃ a, (r.slots path).get a = some id ∧ a.kind ≠ role.addressKind := by
  rw [mem_audience]
  refine exists_congr fun a => and_congr_right fun hget => ?_
  have hserver := kind_ne_server hr hget
  constructor
  · rintro (⟨rfl, hkind⟩ | ⟨rfl, rfl⟩)
    · rw [hkind]
      decide
    · decide
  · intro hkind
    cases role with
    | initiator =>
      have hresponder := Address.isResponder_of_ne hserver hkind
      exact .inl ⟨rfl, (Address.isResponder_iff a).mp hresponder⟩
    | responder => exact .inr ⟨rfl, Address.eq_initiator_of_ne hserver hkind⟩

/-- Nobody is told about himself. -/
theorem notMem_audience (hr : r.census.Coherent) {path : PathId} {a : Address} {role : Role}
    (h : (r.slots path).get a = some id) (hkind : a.kind = role.addressKind) :
    id ∉ r.audience path role := by
  intro hmem
  obtain ⟨b, hget, hne⟩ := (mem_audience_iff hr).mp hmem
  rw [(address_unique hr hget h).2] at hne
  exact hne hkind

/-- Who is not told is on the same side. -/
theorem kind_of_notMem_audience (hr : r.census.Coherent) {path : PathId} {a : Address} {role : Role}
    (h : (r.slots path).get a = some id) (hmem : id ∉ r.audience path role) :
    a.kind = role.addressKind := by
  by_contra hne
  exact hmem ((mem_audience_iff hr).mpr ⟨a, h, hne⟩)

theorem nodup_audience (hr : r.census.Coherent) (path : PathId) (role : Role) :
    (r.audience path role).Nodup := by
  unfold audience
  cases role with
  | responder =>
    cases (r.slots path).initiator with
    | none => exact List.nodup_nil
    | some d => exact List.nodup_singleton d
  | initiator =>
    -- Who has different addresses are different clients.
    refine List.Nodup.map_on ?_ (Address.nodup_responders.filterMap fun a a' entry ha ha' => ?_)
    · rintro ⟨a, d⟩ h ⟨a', d'⟩ h' rfl
      rw [Slots.mem_responders_iff] at h h'
      rw [(address_unique hr h.2 h'.2).2]
    · obtain ⟨d, -, rfl⟩ := Option.map_eq_some_iff.mp ha
      obtain ⟨d', -, heq⟩ := Option.map_eq_some_iff.mp ha'
      exact (congrArg Prod.fst heq).symm

/-- Everybody on the other side is told once. -/
theorem of_recordAnnouncement (hr : r.census.Coherent) (path : PathId) (role : Role) (m : Message)
    (seats : Slots ClientId) (d : ClientId) :
    (r.recordAnnouncement path role m seats).of d =
      if d ∈ r.audience path role then [.told m seats] else [] := by
  have hnodup := nodup_audience hr path role
  unfold recordAnnouncement
  generalize r.audience path role = ids at hnodup ⊢
  induction ids with
  | nil => rfl
  | cons other rest ih =>
    obtain ⟨hother, hrest⟩ := List.nodup_cons.mp hnodup
    rw [List.map_cons, Journal.of_cons, ih hrest]
    by_cases heq : other = d
    · subst heq
      rw [if_pos rfl, if_neg hother, if_pos (.head rest), List.append_nil]
    · rw [if_neg heq, List.nil_append]
      simp [Ne.symm heq]

end Relay

end Rendezvous
