import Rendezvous.Proofs.Relay.Census

/-!
# Who has an address

Slots, registry and clients are three structures, and a client and its slot speak of each other. This
module shows that they agree after every run.

* **`Census.Coherent`** — the invariant: the registry is right, every client is on a path of its key,
  and whoever has an address is seated at it.
* **`Census.Move.coherent`** — each move keeps it; only `seat` gives addresses out, and only clients
  that are seated nowhere are seated.
* **`occupants_run`** — what follows for runs: each occupant is an authenticated client that is still
  there, on a path that is registered, and has no other address.
-/

namespace Rendezvous

namespace Phase

variable {service : Service} {key : PublicKey} {p q : Phase}

/-- Only a client without an address advances, and it has none afterwards. -/
theorem Advances.isAuthenticated (h : Advances service key p q) :
    p.isAuthenticated = false ∧ q.isAuthenticated = false := by
  cases h <;> exact ⟨rfl, rfl⟩

end Phase

namespace Census

variable {s t : Census} {path : PathId} {a : Address} {id : ClientId} {c : Client}

/-! ## The invariant -/

/-- A client is seated at an address of its role, and has not left. -/
structure SeatedAt (c : Client) (path : PathId) (a : Address) : Prop where
  path : c.path = path
  present : c.gone = false
  phase : ∃ admission, c.phase = .seated admission a ∧ admission.role.addressKind = a.kind

/-- Registry, slots and clients agree. -/
structure Coherent (s : Census) : Prop where
  sound : s.registry.Sound
  complete : s.registry.Complete
  onPath : ∀ id c, s.client? id = some c →
    ∃ p, s.registry.path? c.path = some p ∧ p.key = c.initiatorKey
  occupied : ∀ path p a id, s.registry.path? path = some p → p.slots.get a = some id →
    p.orphan = false ∧ ∃ c, s.client? id = some c ∧ SeatedAt c path a

/-- Who is not seated has no address. -/
theorem Coherent.no_slot (h : s.Coherent) (hc : s.client? id = some c)
    (hseat : c.isAuthenticated = false) {p : Path ClientId} (hp : s.registry.path? path = some p) :
    p.slots.get a ≠ some id := by
  intro hget
  obtain ⟨-, c', hc', hseated⟩ := h.occupied path p a id hp hget
  obtain ⟨admission, hphase, -⟩ := hseated.phase
  rw [hc] at hc'
  cases hc'
  rw [Client.isAuthenticated, hphase] at hseat
  cases hseat

/-! ## What the moves keep -/

/-- What is kept when a client without an address changes, as long as it stays on a path of its
key. -/
theorem Coherent.setClient (h : s.Coherent) (c' : Client) {p : Path ClientId}
    (hfree : ∀ path p a, s.registry.path? path = some p → p.slots.get a ≠ some id)
    (hp : s.registry.path? c'.path = some p) (hkey : p.key = c'.initiatorKey) :
    (s.setClient id c').Coherent := by
  refine ⟨h.sound, h.complete, fun other d hd => ?_, fun path q a other hq hget => ?_⟩
  · by_cases heq : id = other
    · subst heq
      obtain ⟨-, -, rfl⟩ : ∃ d', s.client? id = some d' ∧ c' = d := by
        simpa [Census.setClient] using hd
      exact ⟨p, hp, hkey⟩
    · rw [client?_setClient_ne s c' heq] at hd
      exact h.onPath other d hd
  · obtain ⟨ho, d, hd, hseated⟩ := h.occupied path q a other hq hget
    have hne : id ≠ other := by
      rintro rfl
      exact hfree path q a hq hget
    exact ⟨ho, d, (client?_setClient_ne s c' hne).trans hd, hseated⟩

/-- What is kept when a key gets its path. -/
theorem Coherent.getOrCreate (h : s.Coherent) (key : PublicKey) :
    Coherent { s with registry := (s.registry.getOrCreate key).2 } := by
  refine ⟨h.sound.getOrCreate key, h.complete.getOrCreate key, fun id c hc => ?_,
    fun path p a id hp hget => ?_⟩
  · obtain ⟨p, hp, hkey⟩ := h.onPath id c hc
    exact ⟨p, Registry.path?_getOrCreate.mpr (.inl hp), hkey⟩
  · rcases Registry.path?_getOrCreate.mp hp with hold | ⟨-, -, rfl⟩
    · exact h.occupied path p a id hold hget
    · -- Nobody has an address on a new path.
      simp [Path.new] at hget

theorem Coherent.path_getOrCreate (h : s.Coherent) (key : PublicKey) :
    ∃ p, (s.registry.getOrCreate key).2.path? (s.registry.getOrCreate key).1 = some p ∧
      p.key = key := by
  obtain ⟨p, hp, hkey, -⟩ := (h.sound.getOrCreate key).path_of_lookup
    (Registry.lookup_getOrCreate s.registry key)
  exact ⟨p, hp, hkey⟩

/-- What is kept when addresses of one path change: the others have to agree with it. -/
theorem Coherent.setSlots (h : s.Coherent) {slots : Slots ClientId}
    (hslots : ∀ p a id, s.registry.path? path = some p → slots.get a = some id →
      p.orphan = false ∧ ∃ c, s.client? id = some c ∧ SeatedAt c path a) :
    (s.setSlots path slots).Coherent := by
  have hpath : ∀ other p, (s.setSlots path slots).registry.path? other = some p →
      ∃ q, s.registry.path? other = some q ∧ p.key = q.key ∧ p.orphan = q.orphan ∧
        p.slots = if path = other then slots else q.slots := by
    intro other p hp
    replace hp : (s.registry.setSlots path slots).path? other = some p := hp
    rw [Registry.path?_setSlots] at hp
    split at hp
    · next heq =>
      obtain ⟨q, hq, rfl⟩ := Option.map_eq_some_iff.mp hp
      exact ⟨q, hq, rfl, rfl, by simp [heq]⟩
    · next hne => exact ⟨p, hp, rfl, rfl, by simp [hne]⟩
  refine ⟨h.sound.setSlots path slots, h.complete.setSlots path slots, fun id c hc => ?_,
    fun other p a id hp hget => ?_⟩
  · obtain ⟨p, hp, hkey⟩ := h.onPath id c hc
    refine ⟨if path = c.path then { p with slots := slots } else p, ?_, ?_⟩
    · show (s.registry.setSlots path slots).path? c.path = _
      rw [Registry.path?_setSlots, hp]
      split <;> rfl
    · split <;> exact hkey
  · obtain ⟨q, hq, -, ho, hsl⟩ := hpath other p hp
    rw [hsl] at hget
    rw [ho]
    split at hget
    · next heq =>
      subst heq
      exact hslots q a id hq hget
    · exact h.occupied other q a id hq hget

/-- What is kept when the registry prunes a path, on which nobody has an address. -/
theorem Coherent.prune (h : s.Coherent) (path : PathId) :
    Coherent { s with registry := (s.registry.prune path).2 } := by
  refine ⟨h.sound.prune path, h.complete.prune path, fun id c hc => ?_,
    fun other q a id hq hget => ?_⟩
  · obtain ⟨p, hp, hkey⟩ := h.onPath id c hc
    rcases Registry.path?_prune s.registry path c.path with heq | ⟨p', hp', -, heq⟩
    · exact ⟨p, heq.trans hp, hkey⟩
    · rw [hp] at hp'
      cases hp'
      exact ⟨_, heq, hkey⟩
  · rcases Registry.path?_prune s.registry path other with heq | ⟨p, -, hempty, heq⟩
    · exact h.occupied other q a id (heq.symm.trans hq) hget
    · cases heq.symm.trans hq
      rw [(Slots.isEmpty_iff p.slots).mp hempty a] at hget
      cases hget

/-! ## Every move -/

/-- A client joins a path without having an address. -/
theorem Coherent.join (h : s.Coherent) (hnew : s.client? id = none) (c : Client) :
    (s.join id c).Coherent := by
  have hr := h.getOrCreate c.initiatorKey
  obtain ⟨p, hp, hkey⟩ := h.path_getOrCreate c.initiatorKey
  refine ⟨hr.sound, hr.complete, fun other d hd => ?_, fun path q a other hq hget => ?_⟩
  · simp only [Census.join] at hd
    split at hd
    · cases hd
      exact ⟨p, hp, hkey⟩
    · exact hr.onPath other d hd
  · obtain ⟨ho, d, hd, hseated⟩ := hr.occupied path q a other hq hget
    refine ⟨ho, d, ?_, hseated⟩
    have hne : id ≠ other := by
      rintro rfl
      rw [hnew] at hd
      cases hd
    exact (if_neg hne).trans hd

/-- A client that has no address gets one, and nobody else does. -/
theorem Coherent.seat (h : s.Coherent) {admission : Admission} {slots : Slots ClientId}
    (hc : s.client? id = some c) (hphase : c.phase = .admitted admission) (hgone : c.gone = false)
    (hjoin : s.MayJoin c.path c.initiatorKey) (hkind : a.kind = admission.role.addressKind)
    (hslots : ∀ b, slots.get b = if b = a then some id else (s.slots c.path).get b) :
    ((s.setSlots c.path slots).setClient id { c with phase := .seated admission a }).Coherent := by
  have hunseated : c.isAuthenticated = false := by rw [Client.isAuthenticated, hphase]; rfl
  obtain ⟨p, hp, hkey⟩ := h.onPath id c hc
  have hlive : p.orphan = false := by
    rcases hjoin with hlive | hlookup
    · exact hlive p hp
    · obtain ⟨q, hq, -, ho⟩ := h.sound.path_of_lookup hlookup
      rw [hp] at hq
      cases hq
      exact ho
  -- The client is seated before it is written into the slots: both agree only then.
  have hseated := h.setClient { c with phase := .seated admission a }
    (fun path q b hq => h.no_slot hc hunseated hq) hp hkey
  refine hseated.setSlots fun q b other hq hget => ?_
  rw [hslots b] at hget
  split at hget
  · next hb =>
    cases hget
    subst hb
    replace hq : s.registry.path? c.path = some q := hq
    rw [hp] at hq
    cases hq
    exact ⟨hlive, _, client?_setClient_self hc, rfl, hgone, admission, rfl, hkind.symm⟩
  · replace hq : s.registry.path? c.path = some q := hq
    rw [Census.slots, hq] at hget
    exact hseated.occupied c.path q b other hq hget

/-- **Each move keeps the invariant.** -/
theorem Move.coherent (m : Move s t) (h : s.Coherent) : t.Coherent := by
  cases m with
  | join hnew _ _ _ => exact h.join hnew _
  | @advance id c p hc hadvances =>
    obtain ⟨q, hq, hkey⟩ := h.onPath id c hc
    exact h.setClient _ (fun path p a hp => h.no_slot hc hadvances.isAuthenticated.1 hp) hq hkey
  | @rehome id c a p hc hphase _ _ _ =>
    have hunseated : c.isAuthenticated = false := by rw [Client.isAuthenticated, hphase]; rfl
    obtain ⟨q, hq, hkey⟩ := h.path_getOrCreate c.initiatorKey
    have hr := h.getOrCreate c.initiatorKey
    exact hr.setClient _ (fun path p a hp => hr.no_slot hc hunseated hp) hq hkey
  | seat hc hphase hgone hjoin hkind hslots => exact h.seat hc hphase hgone hjoin hkind hslots
  | @release path slots hslots =>
    refine h.setSlots fun p a id hp hget => ?_
    have hold := hslots a id hget
    rw [Census.slots, hp] at hold
    exact h.occupied path p a id hp hold
  | @leave id c hc hfree =>
    obtain ⟨q, hq, hkey⟩ := h.onPath id c hc
    refine h.setClient _ (fun path p a hp hget => ?_) hq hkey
    obtain ⟨-, c', hc', hseated⟩ := h.occupied path p a id hp hget
    rw [hc] at hc'
    cases hc'
    obtain ⟨admission, hphase, -⟩ := hseated.phase
    apply hfree (by rw [Client.isAuthenticated, hphase]; rfl)
    rw [Census.slots, hseated.path, hp, Client.id, hphase]
    exact hget
  | prune path => exact h.prune path

theorem Moves.coherent (m : Moves s t) (h : s.Coherent) : t.Coherent := by
  induction m with
  | refl => exact h
  | tail _ m ih => exact m.coherent ih

end Census

/-! ## Runs -/

namespace Relay

variable {r : Relay}

theorem coherent_new (service : Service) : (new service).census.Coherent := by
  refine ⟨Registry.sound_empty, Registry.complete_empty, fun id c hc => ?_, fun path p a id hp => ?_⟩
  · simp [census, new, client?] at hc
  · simp [census, new, Registry.empty, Registry.path?] at hp

/-- What a client's next frame has to carry makes no difference to addresses. -/
theorem coherent_hear (h : r.census.Coherent) (id : ClientId) (frame : Bytes) :
    (r.hear id frame).census.Coherent := by
  rcases hear_cases r id frame with ⟨heq, -⟩ | ⟨c, f, next, hc, -, -, heq⟩
  · rw [heq]
    exact h
  · have hclient := census_client? hc
    rw [heq, census_setClient]
    refine ⟨h.sound, h.complete, fun other d hd => ?_, fun path p a other hp hget => ?_⟩
    · by_cases hne : id = other
      · subst hne
        rw [Census.client?_setClient_self hclient] at hd
        cases hd
        exact h.onPath id c.standing hclient
      · rw [Census.client?_setClient_ne _ _ hne] at hd
        exact h.onPath other d hd
    · obtain ⟨ho, d, hd, hseated⟩ := h.occupied path p a other hp hget
      by_cases hne : id = other
      · subst hne
        rw [hclient] at hd
        cases hd
        exact ⟨ho, _, Census.client?_setClient_self hclient, hseated.path, hseated.present,
          hseated.phase⟩
      · exact ⟨ho, d, (Census.client?_setClient_ne _ _ hne).trans hd, hseated⟩

theorem coherent_perform (h : r.census.Coherent) (a : Action) : (r.perform a).census.Coherent := by
  have hheard : (r.heard a).census.Coherent := by
    cases a with
    | receive id frame => exact coherent_hear h id frame
    | unpack id frame => exact coherent_hear h id frame
    | _ => exact h
  exact (census_perform r a).coherent hheard

/-- The invariant holds after every run. -/
theorem coherent_run (service : Service) (actions : List Action) :
    ((new service).run actions).census.Coherent :=
  run_induction (P := fun r => r.census.Coherent) (coherent_new service)
    (fun _ a h => coherent_perform h a) actions

/-- What is true of a client that has an address on a path. -/
structure Occupant (r : Relay) (path : PathId) (p : Path ClientId) (a : Address) (c : Client) :
    Prop where
  path_eq : c.path = path
  id_eq : c.id = a
  authenticated : c.isAuthenticated = true
  stage : c.stage = .serverAuth
  present : c.gone = false
  role : c.role?.map Role.addressKind = some a.kind
  ne_server : a ≠ .server
  live : p.orphan = false
  registered : r.registry.find? p.key.hex = some path

theorem occupant_of_coherent (h : r.census.Coherent) {path : PathId} {p : Path ClientId}
    {a : Address} {id : ClientId} (hp : r.registry.path? path = some p)
    (hget : p.slots.get a = some id) : ∃ c, r.client? id = some c ∧ r.Occupant path p a c := by
  obtain ⟨ho, d, hd, hseated⟩ := h.occupied path p a id hp hget
  obtain ⟨c, hc, rfl⟩ := of_census_client? hd
  obtain ⟨admission, hphase, hkind⟩ := hseated.phase
  replace hphase : c.phase = .seated admission a := hphase
  have hfind : r.registry.find? p.key.hex = some path := by
    rw [Registry.find?_hex]
    exact h.sound.lookup_of_path h.complete hp ho
  refine ⟨c, hc, hseated.path, ?_, ?_, ?_, hseated.present, ?_, ?_, ho, hfind⟩
  · rw [Client.id, hphase]; rfl
  · rw [Client.isAuthenticated, hphase]; rfl
  · rw [Client.stage, hphase]; rfl
  · rw [Client.role?, hphase, ← hkind]; rfl
  · rintro rfl
    cases hrole : admission.role <;> rw [hrole] at hkind <;> exact absurd hkind (by decide)

/-- **Slots, registry and clients agree after every run.** Whoever has an address is an authenticated
client with that address on that very path, which is the one registered under its key. So a client has
at most one address, nobody has one on a path that was taken out, and all who have an address on a path
of one key are on the same path. -/
theorem occupants_run (service : Service) (actions : List Action) :
    (∀ path p a id, ((new service).run actions).registry.path? path = some p →
      p.slots.get a = some id →
      ∃ c, ((new service).run actions).client? id = some c ∧
        ((new service).run actions).Occupant path p a c) ∧
    (∀ id path p a path' p' a',
      ((new service).run actions).registry.path? path = some p → p.slots.get a = some id →
      ((new service).run actions).registry.path? path' = some p' → p'.slots.get a' = some id →
      path = path' ∧ a = a') ∧
    (∀ path p, ((new service).run actions).registry.path? path = some p → p.orphan = true →
      ∀ a, p.slots.get a = none) ∧
    (∀ path p a id path' p' a' id',
      ((new service).run actions).registry.path? path = some p → p.slots.get a = some id →
      ((new service).run actions).registry.path? path' = some p' → p'.slots.get a' = some id' →
      p.key = p'.key → path = path') := by
  have h := coherent_run service actions
  generalize (new service).run actions = r at h
  refine ⟨fun path p a id hp hget => occupant_of_coherent h hp hget, ?_, ?_, ?_⟩
  · intro id path p a path' p' a' hp hget hp' hget'
    obtain ⟨c, hc, ho⟩ := occupant_of_coherent h hp hget
    obtain ⟨c', hc', ho'⟩ := occupant_of_coherent h hp' hget'
    rw [hc] at hc'
    cases hc'
    exact ⟨ho.path_eq.symm.trans ho'.path_eq, ho.id_eq.symm.trans ho'.id_eq⟩
  · intro path p hp horphan a
    cases hget : p.slots.get a with
    | none => rfl
    | some id =>
      obtain ⟨c, -, ho⟩ := occupant_of_coherent h hp hget
      cases horphan.symm.trans ho.live
  · intro path p a id path' p' a' id' hp hget hp' hget' hkey
    obtain ⟨c, -, ho⟩ := occupant_of_coherent h hp hget
    obtain ⟨c', -, ho'⟩ := occupant_of_coherent h hp' hget'
    have hfind := ho.registered
    rw [hkey, ho'.registered] at hfind
    exact (Option.some.inj hfind).symm

end Relay

end Rendezvous
