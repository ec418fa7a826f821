import Rendezvous.Proofs.Relay.Bystanders

/-!
# Paths are given back

A path is only taken out of the registry when somebody disconnects, and only if nobody has an address on
it then. In the meantime it may be left by those who had one, be taken out under clients that are still on
their way to it, and be replaced by a new one. What keeps all this from leaking is an invariant: every
registered path has a client on it that has not gone. Only a departure can break it, and the departure
takes the path out in the same step, unless it finds somebody there, who then keeps the invariant.

* **`Census.Tended`** — the invariant.
* **`Census.Moves.tended`** — moves keep it, unless somebody goes.
* **`tended_disconnect`** — a departure keeps it as a whole.
* **`paths_released`** — what follows once everybody has disconnected.
-/

namespace Rendezvous

/-- A path that is in the registry after it was pruned is not empty. -/
theorem Registry.Sound.not_isEmpty_of_prune {α : Type u} {r : Registry α} (h : r.Sound)
    (hcomplete : r.Complete) {id : PathId} {p : Path α} (hp : (Registry.prune r id).2.path? id = some p)
    (ho : p.orphan = false) : p.isEmpty = false := by
  rw [← Bool.not_eq_true]
  intro hempty
  have hprunable := isPrunable_iff.mpr ⟨p, hp, (h.prune id).lookup_of_path (hcomplete.prune id) hp ho,
    (Slots.isEmpty_iff p.slots).mp hempty⟩
  cases hprunable.symm.trans (isPrunable_prune h id)

namespace Census

variable {s t : Census} {path : PathId} {id other : ClientId} {c d : Client}

/-- Every registered path has a client on it that has not gone. -/
def Tended (s : Census) : Prop :=
  ∀ path p, s.registry.path? path = some p → p.orphan = false →
    ∃ id c, s.client? id = some c ∧ c.path = path ∧ c.gone = false

/-- A client has gone. -/
def Gone (s : Census) (id : ClientId) : Prop :=
  ∃ c, s.client? id = some c ∧ c.gone = true

/-! ## Those who have gone -/

theorem Gone.setClient (h : s.Gone id) (hc : s.client? other = some c)
    (hd : c.gone = true → d.gone = true) : (s.setClient other d).Gone id := by
  obtain ⟨c', hc', hgone⟩ := h
  by_cases heq : other = id
  · subst heq
    cases hc.symm.trans hc'
    exact ⟨d, client?_setClient_self hc, hd hgone⟩
  · exact ⟨c', (client?_setClient_ne s d heq).trans hc', hgone⟩

/-- Who has gone has gone for good. -/
theorem Move.gone (m : Move s t) (h : s.Gone id) : t.Gone id := by
  cases m with
  | @join other d hnew _ _ _ =>
    obtain ⟨c, hc, hgone⟩ := h
    have hne : other ≠ id := by
      rintro rfl
      cases hnew.symm.trans hc
    exact ⟨c, (if_neg hne).trans hc, hgone⟩
  | advance hc _ => exact h.setClient hc fun hgone => hgone
  | @rehome other d a p hc _ _ _ _ =>
    exact Gone.setClient (s := { s with registry := (s.registry.getOrCreate d.initiatorKey).2 }) h hc
      fun hgone => hgone
  | @seat other d a address slots hc _ _ _ _ _ =>
    exact Gone.setClient (s := s.setSlots d.path slots) h hc fun hgone => hgone
  | release _ => exact h
  | leave hc _ => exact h.setClient hc fun _ => rfl
  | prune _ => exact h

theorem Moves.gone (m : Moves s t) (h : s.Gone id) : t.Gone id := by
  induction m with
  | refl => exact h
  | tail _ m ih => exact m.gone ih

/-! ## Moves -/

/-- A client that stays on its path tends it as before. If its path was taken out, it need not stay. -/
theorem Tended.setClient (h : s.Tended) (hc : s.client? id = some c)
    (hd : ∀ p, s.registry.path? c.path = some p → p.orphan = false → d.path = c.path)
    (hgone : d.gone = c.gone) : (s.setClient id d).Tended := by
  intro path p hp ho
  obtain ⟨other, c', hc', rfl, hpresent⟩ := h path p hp ho
  by_cases heq : id = other
  · subst heq
    cases hc.symm.trans hc'
    exact ⟨id, d, client?_setClient_self hc, hd p hp ho, hgone.trans hpresent⟩
  · exact ⟨other, c', (client?_setClient_ne s d heq).trans hc', rfl, hpresent⟩

/-- A registered path that is not the one of a given key was there before that one was looked up. -/
theorem Tended.getOrCreate (h : s.Tended) (key : PublicKey) {p : Path ClientId}
    (hp : (s.registry.getOrCreate key).2.path? path = some p) (ho : p.orphan = false) :
    path = (s.registry.getOrCreate key).1 ∨
      ∃ id c, s.client? id = some c ∧ c.path = path ∧ c.gone = false := by
  rcases Registry.path?_getOrCreate.mp hp with hold | ⟨hnone, rfl, -⟩
  · exact .inr (h path p hold ho)
  · rcases Registry.getOrCreate_cases s.registry key with ⟨id, hsome, -⟩ | ⟨-, heq⟩
    · cases hnone.symm.trans hsome
    · exact .inl (by rw [heq])

/-- Where addresses change, paths and clients stay. -/
theorem Tended.setSlots (h : s.Tended) (path : PathId) (slots : Slots ClientId) :
    (s.setSlots path slots).Tended := by
  intro other p hp ho
  replace hp : (s.registry.setSlots path slots).path? other = some p := hp
  rw [Registry.path?_setSlots] at hp
  split at hp
  · obtain ⟨q, hq, rfl⟩ := Option.map_eq_some_iff.mp hp
    exact h other q hq ho
  · exact h other p hp ho

/-- **Moves keep every registered path tended**, as long as nobody goes. -/
theorem Move.tended (m : Move s t) (hstay : ∀ id, t.Gone id → s.Gone id) (h : s.Tended) :
    t.Tended := by
  cases m with
  | @join id c hnew _ hpresent _ =>
    intro path p hp ho
    rcases h.getOrCreate c.initiatorKey hp ho with rfl | ⟨other, d, hd, hpath, hgone⟩
    · exact ⟨id, _, if_pos rfl, rfl, hpresent⟩
    · have hne : id ≠ other := by
        rintro rfl
        cases hnew.symm.trans hd
      exact ⟨other, d, (if_neg hne).trans hd, hpath, hgone⟩
  | advance hc _ => exact h.setClient hc (fun _ _ _ => rfl) rfl
  | @rehome id c a p hc _ hpresent hp horphan =>
    intro path q hq ho
    have hc' : Census.client? { s with registry := (s.registry.getOrCreate c.initiatorKey).2 } id =
        some c := hc
    rcases h.getOrCreate c.initiatorKey hq ho with rfl | ⟨other, d, hd, hpath, hgone⟩
    · exact ⟨id, _, client?_setClient_self hc', rfl, hpresent⟩
    · -- The path that the client leaves was taken out, so it is not this one.
      have hne : id ≠ other := by
        rintro rfl
        cases hc.symm.trans hd
        subst hpath
        have hkept : (s.registry.getOrCreate c.initiatorKey).2.path? c.path = some p :=
          Registry.path?_getOrCreate.mpr (.inl hp)
        cases hq.symm.trans hkept
        cases horphan.symm.trans ho
      exact ⟨other, d, (client?_setClient_ne _ _ hne).trans hd, hpath, hgone⟩
  | @seat id c a address slots hc _ _ _ _ _ =>
    have hc' : (s.setSlots c.path slots).client? id = some c := hc
    exact (h.setSlots c.path slots).setClient hc' (fun _ _ _ => rfl) rfl
  | release _ => exact h.setSlots _ _
  | @leave id c hc _ =>
    -- Nobody goes, so the one who leaves had gone before.
    obtain ⟨c', hc', hgone⟩ := hstay id ⟨_, client?_setClient_self hc, rfl⟩
    cases hc.symm.trans hc'
    exact h.setClient hc (fun _ _ _ => rfl) hgone.symm
  | prune path =>
    intro other p hp ho
    rcases Registry.path?_prune s.registry path other with heq | ⟨q, -, -, heq⟩
    · exact h other p (heq.symm.trans hp) ho
    · cases heq.symm.trans hp
      cases ho

theorem Moves.tended (m : Moves s t) (hstay : ∀ id, t.Gone id → s.Gone id) (h : s.Tended) :
    t.Tended := by
  induction m with
  | refl => exact h
  | tail before m ih =>
    -- Who goes in between has gone in the end, so nobody goes in between either.
    have hbefore := ih fun id hgone => hstay id (m.gone hgone)
    exact m.tended (fun id hgone => Moves.gone before (hstay id hgone)) hbefore

end Census

namespace Relay

variable {r : Relay} {id : ClientId} {c : Client} {act : Action}

/-! ## Steps -/

theorem gone_census : r.census.Gone id ↔ r.Gone id := by
  constructor
  · rintro ⟨c, hc, hgone⟩
    obtain ⟨c', hc', rfl⟩ := of_census_client? hc
    exact ⟨c', hc', hgone⟩
  · rintro ⟨c, hc, hgone⟩
    exact ⟨c.standing, census_client? hc, hgone⟩

/-- Frames that are counted make no difference. -/
theorem tended_heard (h : r.census.Tended) (act : Action) : (r.heard act).census.Tended := by
  have hhear : ∀ id bytes, (r.hear id bytes).census.Tended := by
    intro id bytes
    rcases hear_cases r id bytes with ⟨heq, -⟩ | ⟨c, f, next, hc, -, -, heq⟩
    · rw [heq]
      exact h
    · rw [heq, census_setClient]
      exact h.setClient (census_client? hc) (fun _ _ _ => rfl) rfl
  cases act with
  | receive id bytes => exact hhear id bytes
  | unpack id bytes => exact hhear id bytes
  | _ => exact h

theorem gone_heard (h : r.Gone id) (act : Action) : (r.heard act).Gone id := by
  have hhear : ∀ other bytes, (r.hear other bytes).Gone id := by
    intro other bytes
    rcases hear_cases r other bytes with ⟨heq, -⟩ | ⟨c, f, next, hc, -, -, heq⟩
    · rw [heq]
      exact h
    · rw [heq, ← gone_census, census_setClient]
      exact (gone_census.mpr h).setClient (census_client? hc) fun hgone => hgone
  cases act with
  | receive other bytes => exact hhear other bytes
  | unpack other bytes => exact hhear other bytes
  | _ => exact h

/-- A client leaves, and its path is pruned. Unless it is taken out, somebody has an address on it, who has
not gone. On all other paths nothing happens. -/
theorem tended_leave (hr : r.census.Coherent) (h : r.census.Tended) (hc : r.client? id = some c)
    (hs : { r.setClient id { c with gone := true } with
      registry := (r.registry.prune c.path).2 }.census.Coherent) :
    { r.setClient id { c with gone := true } with
      registry := (r.registry.prune c.path).2 }.census.Tended := by
  intro path p hp ho
  by_cases hpath : path = c.path
  · subst hpath
    have hoccupied := hr.sound.not_isEmpty_of_prune hr.complete hp ho
    have hsome : ∃ a who, p.slots.get a = some who := by
      by_contra hnone
      have hempty : p.isEmpty = true := by
        refine (Slots.isEmpty_iff p.slots).mpr fun a => ?_
        cases hget : p.slots.get a with
        | none => rfl
        | some who => exact absurd ⟨a, who, hget⟩ hnone
      cases hoccupied.symm.trans hempty
    obtain ⟨a, who, hget⟩ := hsome
    obtain ⟨-, d, hd, hseated⟩ := hs.occupied c.path p a who hp hget
    exact ⟨who, d, hd, hseated.path, hseated.present⟩
  · have hold : r.registry.path? path = some p := by
      rcases Registry.path?_prune r.registry c.path path with heq | ⟨q, -, -, heq⟩
      · exact heq.symm.trans hp
      · cases heq.symm.trans hp
        cases ho
    obtain ⟨other, _, hstanding, rfl, hpresent⟩ := h path p hold ho
    obtain ⟨d, hd, rfl⟩ := of_census_client? hstanding
    have hne : id ≠ other := by
      rintro rfl
      cases hc.symm.trans hd
      exact hpath rfl
    refine ⟨other, d.standing, census_client? ?_, rfl, hpresent⟩
    show (r.setClient id { c with gone := true }).client? other = some d
    rw [client?_setClient, if_neg hne]
    exact hd

/-- **A departure leaves no path untended.** -/
theorem tended_departed (hr : r.census.Coherent) (h : r.census.Tended) (hc : r.client? id = some c) :
    (r.departed id c).census.Tended := by
  have hs := (moves_departed hc).coherent hr
  unfold departed at hs ⊢
  dsimp only at hs ⊢
  split at hs
  · next hauth =>
    rw [if_pos hauth]
    have hvacated := (move_vacate r c.path c.id id).coherent hr
    have htended : (r.vacate c.path c.id id).2.census.Tended := h.setSlots _ _
    exact tended_leave (r := (r.vacate c.path c.id id).2) hvacated htended hc hs
  · next hauth =>
    rw [if_neg hauth]
    exact tended_leave hr h hc hs

theorem tended_disconnect (hr : r.census.Coherent) (h : r.census.Tended) (id : ClientId) :
    (r.perform (.disconnect id)).census.Tended := by
  rw [perform]
  rcases disconnected_cases r id with ⟨-, heq⟩ | ⟨c, outcome, hc, -, heq⟩ |
    ⟨c, role, outcome, hc, -, -, -, heq⟩
  · rw [heq]
    exact h
  · rw [heq]
    exact tended_departed hr h hc
  · rw [heq, census_announce]
    exact tended_departed hr h hc

theorem tended_perform (hr : r.census.Coherent) (h : r.census.Tended) (act : Action) :
    (r.perform act).census.Tended := by
  by_cases hact : ∃ id, act = .disconnect id
  · obtain ⟨id, rfl⟩ := hact
    exact tended_disconnect hr h id
  · refine (census_perform r act).tended (fun id hgone => ?_) (tended_heard h act)
    rcases gone_of_perform hr (gone_census.mp hgone) with hbefore | heq
    · exact gone_census.mpr (gone_heard hbefore act)
    · exact absurd ⟨id, heq⟩ hact

/-! ## Runs -/

theorem tended_run (service : Service) (actions : List Action) :
    ((new service).run actions).census.Tended := by
  have hnew : (new service).census.Tended := by
    intro path p hp
    simp [census, new, Registry.empty, Registry.path?] at hp
  exact (run_induction (P := fun r => r.census.Coherent ∧ r.census.Tended) ⟨coherent_new service, hnew⟩
    (fun _ act h => ⟨coherent_perform h.1 act, tended_perform h.1 h.2 act⟩) actions).2

theorem Gone.run (hr : r.census.Coherent) (h : r.Gone id) (actions : List Action) :
    (r.run actions).Gone id :=
  (run_induction (P := fun r => r.census.Coherent ∧ r.Gone id) ⟨hr, h⟩
    (fun _ act h => ⟨coherent_perform h.1 act, h.2.perform h.1 act⟩) actions).2

/-- Somewhere in a run the client, which was there already, was disconnected. -/
def DisconnectedIn (service : Service) (actions : List Action) (id : ClientId) : Prop :=
  ∃ before after, actions = before ++ .disconnect id :: after ∧
    (((new service).run before).client? id).isSome = true

/-- **Nothing is left of the paths.** Once each client has been disconnected at least once, whatever happened
before, in between and afterwards, no path is registered, and every path there ever was is taken out and
empty. -/
theorem paths_released (service : Service) (actions : List Action)
    (h : ∀ id, (((new service).run actions).client? id).isSome = true →
      DisconnectedIn service actions id) :
    ((new service).run actions).registry.size = 0 ∧
    ∀ path p, ((new service).run actions).registry.path? path = some p →
      p.orphan = true ∧ p.isEmpty = true ∧ ∀ a, p.slots.get a = none := by
  have hr := coherent_run service actions
  have hgone : ∀ id c, ((new service).run actions).client? id = some c → c.gone = true := by
    intro id c hc
    obtain ⟨before, after, rfl, hbefore⟩ := h id (by rw [hc]; rfl)
    obtain ⟨d, hd⟩ := Option.isSome_iff_exists.mp hbefore
    have hleft := gone_of_disconnect hd
    have hcoherent := coherent_perform (coherent_run service before) (.disconnect id)
    rw [run_append, run_cons] at hc
    obtain ⟨c', hc', hgone⟩ := hleft.run hcoherent after
    cases hc.symm.trans hc'
    exact hgone
  have horphan : ∀ path p, ((new service).run actions).registry.path? path = some p →
      p.orphan = true := by
    intro path p hp
    rw [← Bool.not_eq_false]
    intro ho
    obtain ⟨id, c, hc, -, hpresent⟩ := tended_run service actions path p hp ho
    obtain ⟨c', hc', rfl⟩ := of_census_client? hc
    cases (hgone id c' hc').symm.trans hpresent
  have hempty : ∀ path p, ((new service).run actions).registry.path? path = some p →
      ∀ a, p.slots.get a = none := by
    intro path p hp a
    cases hget : p.slots.get a with
    | none => rfl
    | some id =>
      obtain ⟨ho, -⟩ := hr.occupied path p a id hp hget
      cases ho.symm.trans (horphan path p hp)
  refine ⟨?_, fun path p hp => ⟨horphan path p hp, ?_, hempty path p hp⟩⟩
  · -- What is registered is no orphan.
    refine List.length_eq_zero_iff.mpr (List.eq_nil_iff_forall_not_mem.mpr ?_)
    rintro ⟨key, path⟩ hmem
    obtain ⟨p, hp, -, ho⟩ := hr.sound.registered key path hmem
    cases ho.symm.trans (horphan path p hp)
  · exact (Slots.isEmpty_iff p.slots).mpr (hempty path p hp)

/-- A path is taken out under an initiator who is on the way to it, and takes its address on a new path. -/
def departures : List Action :=
  [Displaced.connect, .greet ⟨0⟩, .receive ⟨0⟩ Displaced.initiatorAuth, Displaced.connect,
    .disconnect ⟨1⟩, .answer ⟨0⟩, .disconnect ⟨0⟩, .disconnect ⟨1⟩]

theorem paths_released_departures :
    (∀ id, (((new Displaced.service).run departures).client? id).isSome = true →
      DisconnectedIn Displaced.service departures id) ∧
    ((new Displaced.service).run departures).registry.size = 0 ∧
    ∀ path p, ((new Displaced.service).run departures).registry.path? path = some p →
      p.orphan = true ∧ p.isEmpty = true ∧ ∀ a, p.slots.get a = none := by
  have hleft : ∀ id, (((new Displaced.service).run departures).client? id).isSome = true →
      DisconnectedIn Displaced.service departures id := by
    obtain ⟨hsize, hinitiator, hother⟩ :
        ((new Displaced.service).run departures).clients.size = 2 ∧
        (((new Displaced.service).run (departures.take 6)).client? ⟨0⟩).isSome = true ∧
        (((new Displaced.service).run (departures.take 4)).client? ⟨1⟩).isSome = true := by
      decide +kernel
    rintro ⟨index⟩ hsome
    have hlt : index < 2 := by simpa [client?, hsize] using hsome
    obtain rfl | rfl : index = 0 ∨ index = 1 := by omega
    · exact ⟨departures.take 6, [.disconnect ⟨1⟩], rfl, hinitiator⟩
    · exact ⟨departures.take 4, departures.drop 5, rfl, hother⟩
  exact ⟨hleft, paths_released Displaced.service departures hleft⟩

end Relay

end Rendezvous
