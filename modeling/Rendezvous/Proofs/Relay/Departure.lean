import Rendezvous.Proofs.Relay.Pruning

/-!
# What a departure does

A client that departs gives up its address if it still has it, by who it is and not by the address, which may
have gone to somebody else in the meantime. Then its path is taken out of the registry if that leaves nobody
on it, and those on the other side of the path are told, each once. A client that has no address any more, or
never had one, departs silently; its path is pruned all the same, since it may have been created for that
client alone.

To depart is final. A second departure finds nothing left to do, and an answer that was put off for the client
before does nothing, whenever it comes.

* **`Relay.Hears`** — somebody is on the other side of a client that has its address.
* **`Relay.Departs`** — what is left of a relay when a client departs, in full.
* **`disconnected_run`** — every departure in every run is one of these, and final.
-/

namespace Rendezvous

namespace Relay

variable {r s : Relay} {id other : ClientId} {c o : Client} {role : Role}

/-! ## Who is told -/

/-- Somebody is on the other side of a client that has its address. -/
inductive Hears (r : Relay) (id : ClientId) (c : Client) (other : ClientId) : Prop where
  | ofInitiator {a : Address} (hslot : (r.slots c.path).get c.id = some id)
      (hrole : c.role? = some .initiator) (ha : a.isResponder = true)
      (hget : (r.slots c.path).get a = some other)
  | ofResponder (hslot : (r.slots c.path).get c.id = some id) (hrole : c.role? = some .responder)
      (hget : (r.slots c.path).get .initiator = some other)

/-- A relay after a client departed from it, and whether it departed in order. -/
structure Departs (r : Relay) (id : ClientId) (c : Client) (outcome : Outcome) (s : Relay) : Prop where
  /-- Only a responder with its address can find nobody to be told. -/
  outcome_eq : outcome =
    if (r.slots c.path).get c.id = some id ∧ c.role? = some .responder ∧
        (r.slots c.path).get .initiator = none then .error .noInitiator
    else .ok ()
  slots : ∀ path a, (s.slots path).get a =
    if (r.slots c.path).get c.id = some id ∧ path = c.path ∧ a = c.id then none
    else (r.slots path).get a
  /-- The client's path is not registered any more if nobody is left on it. -/
  registered : ∀ key path, s.registry.live.lookup key = some path ↔
    r.registry.live.lookup key = some path ∧ ¬ (path = c.path ∧ ∀ a, (s.slots path).get a = none)
  orphaned : ∀ path p, r.registry.path? path = some p → ∃ q, s.registry.path? path = some q ∧
    q.key = p.key ∧ (q.orphan = true ↔ p.orphan = true ∨
      (path = c.path ∧ r.registry.live.lookup p.key = some path ∧ ∀ a, (s.slots path).get a = none))
  self : s.client? id = some { c with gone := true }
  told : ∀ other o, r.Hears id c other → r.client? other = some o →
    s.client? other = some { o with inbox := o.inbox ++ [.notice (.disconnected c.id)] }
  others : ∀ other, other ≠ id → ¬ r.Hears id c other → s.client? other = r.client? other
  jobs : ∃ ids : List ClientId, ids.Nodup ∧ (∀ other, other ∈ ids ↔ r.Hears id c other) ∧
    s.jobs.pending = r.jobs.pending ++ ids.map .deliver
  rest : s = { r with clients := s.clients, registry := s.registry, jobs := s.jobs }

/-- Who has an address is authenticated, and the address is of its role. -/
theorem owner_of_get (hr : r.census.Coherent) (hc : r.client? id = some c)
    (hslot : (r.slots c.path).get c.id = some id) :
    c.isAuthenticated = true ∧ ∃ role, c.role? = some role ∧ role.addressKind = c.id.kind := by
  obtain ⟨p, d, hd, ho⟩ := occupant_of_get hr hslot
  cases hc.symm.trans hd
  exact ⟨ho.authenticated, Option.map_eq_some_iff.mp ho.role⟩

/-- Nobody is on the other side of himself. -/
theorem not_hears_self (hr : r.census.Coherent) (hc : r.client? id = some c) : ¬ r.Hears id c id := by
  intro hhears
  cases hhears with
  | @ofInitiator a hslot hrole ha hget =>
    obtain ⟨-, role, hrole', hkind⟩ := owner_of_get hr hc hslot
    cases hrole.symm.trans hrole'
    rw [← (address_unique hr hget hslot).2, (Address.isResponder_iff a).mp ha] at hkind
    cases hkind
  | ofResponder hslot hrole hget =>
    obtain ⟨-, role, hrole', hkind⟩ := owner_of_get hr hc hslot
    cases hrole.symm.trans hrole'
    rw [← (address_unique hr hget hslot).2] at hkind
    cases hkind

/-- The other side of a path stays as it is when a client gives up its own address. -/
theorem mem_audience_departed (hauth : c.isAuthenticated = true)
    (hslot : (r.slots c.path).get c.id = some id) (hrole : c.role? = some role)
    (hkind : role.addressKind = c.id.kind) :
    other ∈ (r.departed id c).audience c.path role ↔ r.Hears id c other := by
  have hkept : ∀ a, a.kind ≠ c.id.kind →
      ((r.departed id c).slots c.path).get a = (r.slots c.path).get a := by
    intro a hne
    rw [frees_departed hauth hslot, if_neg]
    rintro ⟨-, rfl⟩
    exact hne rfl
  rw [mem_audience]
  constructor
  · rintro ⟨a, hget, ⟨rfl, ha⟩ | ⟨rfl, rfl⟩⟩
    · rw [hkept a (by rw [ha, ← hkind]; decide)] at hget
      exact .ofInitiator hslot hrole ((Address.isResponder_iff a).mpr ha) hget
    · rw [hkept _ (by rw [← hkind]; decide)] at hget
      exact .ofResponder hslot hrole hget
  · intro hhears
    cases hhears with
    | @ofInitiator a _ hrole' ha hget =>
      cases hrole.symm.trans hrole'
      have ha := (Address.isResponder_iff a).mp ha
      exact ⟨a, (hkept a (by rw [ha, ← hkind]; decide)).trans hget, .inl ⟨rfl, ha⟩⟩
    | ofResponder _ hrole' hget =>
      cases hrole.symm.trans hrole'
      exact ⟨.initiator, (hkept _ (by rw [← hkind]; decide)).trans hget, .inr ⟨rfl, rfl⟩⟩

/-! ## The paths -/

/-- Before it is pruned, the registry differs in who has the addresses of one path. -/
theorem registry_departed (hr : r.census.Coherent) (id : ClientId) (c : Client) : ∃ g : Registry ClientId,
    (r.departed id c).registry = (g.prune c.path).2 ∧ g.Sound ∧ g.live = r.registry.live ∧
    (∀ path p, r.registry.path? path = some p →
      ∃ slots, g.path? path = some { p with slots := slots }) ∧
    (g.isPrunable c.path = true ↔ ∃ p, r.registry.path? c.path = some p ∧
      r.registry.live.lookup p.key = some c.path ∧
      ∀ a, ((r.departed id c).slots c.path).get a = none) := by
  -- A client that was never authenticated gives up nothing, as if the addresses were set as they are.
  have hexists : ∃ slots, (r.departed id c).registry =
      ((r.registry.setSlots c.path slots).prune c.path).2 := by
    unfold departed
    cases c.isAuthenticated with
    | true => exact ⟨_, rfl⟩
    | false =>
      refine ⟨r.slots c.path, ?_⟩
      rw [Registry.setSlots_eq_self fun p hp => by rw [slots, hp]]
      rfl
  obtain ⟨seats, hregistry⟩ := hexists
  have hpath := Registry.path?_setSlots r.registry c.path
  have hslots : ∀ p, r.registry.path? c.path = some p → (r.departed id c).slots c.path = seats := by
    intro p hp
    have hp' : (r.registry.setSlots c.path seats).path? c.path = some { p with slots := seats } := by
      rw [hpath, if_pos rfl, hp, Option.map_some]
    rw [slots, hregistry]
    rcases Registry.path?_prune (r.registry.setSlots c.path seats) c.path c.path with heq | ⟨q, hq, -, heq⟩
    · rw [heq, hp']
    · cases hp'.symm.trans hq
      rw [heq]
  refine ⟨_, hregistry, hr.sound.setSlots .., rfl, fun path p hp => ?_, ?_⟩
  · rw [hpath, hp]
    split
    · exact ⟨seats, rfl⟩
    · exact ⟨p.slots, rfl⟩
  · rw [Registry.isPrunable_iff, hpath, if_pos rfl]
    constructor
    · rintro ⟨q, hq, hlookup, hempty⟩
      obtain ⟨p, hp, rfl⟩ := Option.map_eq_some_iff.mp hq
      exact ⟨p, hp, hlookup, fun a => by rw [hslots p hp]; exact hempty a⟩
    · rintro ⟨p, hp, hlookup, hempty⟩
      refine ⟨{ p with slots := seats }, by rw [hp, Option.map_some], hlookup, fun a => ?_⟩
      rw [← hslots p hp]
      exact hempty a

/-- The path of a client that departs is not registered any more if nobody is left on it. -/
theorem lookup_departed (hr : r.census.Coherent) {key : PublicKey} {path : PathId} :
    (r.departed id c).registry.live.lookup key = some path ↔
      r.registry.live.lookup key = some path ∧
        ¬ (path = c.path ∧ ∀ a, ((r.departed id c).slots path).get a = none) := by
  obtain ⟨g, hregistry, hsound, hlive, -, hprunable⟩ := registry_departed hr id c
  rw [hregistry, Registry.lookup_prune hsound, hlive]
  constructor
  · intro h
    split at h
    · cases h
    · next hnot =>
      refine ⟨h, ?_⟩
      rintro ⟨rfl, hempty⟩
      obtain ⟨p, hp, rfl, -⟩ := hr.sound.path_of_lookup h
      exact hnot ⟨hprunable.mpr ⟨p, hp, h, hempty⟩, h⟩
  · rintro ⟨h, hkept⟩
    rw [if_neg, h]
    rintro ⟨htaken, h'⟩
    obtain ⟨p, -, -, hempty⟩ := hprunable.mp htaken
    cases h.symm.trans h'
    exact hkept ⟨rfl, hempty⟩

/-- The path of a client that departs is taken out if it was registered and nobody is left on it. -/
theorem path?_departed (hr : r.census.Coherent) {path : PathId} {p : Path ClientId}
    (hp : r.registry.path? path = some p) :
    ∃ q, (r.departed id c).registry.path? path = some q ∧ q.key = p.key ∧
      (q.orphan = true ↔ p.orphan = true ∨ (path = c.path ∧ r.registry.live.lookup p.key = some path ∧
        ∀ a, ((r.departed id c).slots path).get a = none)) := by
  obtain ⟨g, hregistry, -, -, hpaths, hprunable⟩ := registry_departed hr id c
  obtain ⟨seats, hg⟩ := hpaths path p hp
  rw [hregistry, Registry.path?_prune_eq, hg]
  by_cases htaken : g.isPrunable c.path = true ∧ c.path = path
  · rw [if_pos htaken]
    obtain ⟨hprune, rfl⟩ := htaken
    obtain ⟨p', hp', hlookup, hempty⟩ := hprunable.mp hprune
    cases hp.symm.trans hp'
    exact ⟨_, rfl, rfl, iff_of_true rfl (.inr ⟨rfl, hlookup, hempty⟩)⟩
  · rw [if_neg htaken]
    refine ⟨_, rfl, rfl, .inl, fun h => h.resolve_right ?_⟩
    rintro ⟨rfl, hlookup, hempty⟩
    exact htaken ⟨hprunable.mpr ⟨p, hp, hlookup, hempty⟩, rfl⟩

/-! ## Departing once more -/

/-- Who has departed has nothing left to give up. -/
theorem departed_eq_self (hc : r.client? id = some c) (hgone : c.gone = true)
    (hslot : (r.slots c.path).get c.id ≠ some id) (hpruned : r.registry.isPrunable c.path = false) :
    r.departed id c = r := by
  have hclient : r.setClient id { c with gone := true } = r := by
    have hsame : { c with gone := true } = c := by rw [← hgone]
    rw [hsame]
    exact setClient_eq_self hc
  have hvacated : (r.vacate c.path c.id id).2 = r := by
    have hkept : ((r.slots c.path).removeIf c.id (· == id)).2 = r.slots c.path := by
      unfold Slots.removeIf
      rw [if_neg]
      intro h
      obtain ⟨who, hwho, heq⟩ := (Option.any_eq_true _ _).mp h
      exact hslot (by rw [hwho, beq_iff_eq.mp heq])
    show r.setSlots c.path ((r.slots c.path).removeIf c.id (· == id)).2 = r
    rw [hkept, setSlots, Registry.setSlots_eq_self fun p hp => by rw [slots, hp]]
  have hregistry : (r.registry.prune c.path).2 = r.registry := by
    unfold Registry.prune
    rw [hpruned]
    rfl
  unfold departed
  dsimp only
  rw [hclient, hvacated, ite_self, hregistry]

/-! ## Runs -/

theorem slots_departed (hr : r.census.Coherent) (hc : r.client? id = some c) (path : PathId) (a : Address) :
    ((r.departed id c).slots path).get a =
      if (r.slots c.path).get c.id = some id ∧ path = c.path ∧ a = c.id then none
      else (r.slots path).get a := by
  by_cases hslot : (r.slots c.path).get c.id = some id
  · rw [frees_departed (owner_of_get hr hc hslot).1 hslot]
    simp only [hslot, true_and, eq_comm]
  · rw [if_neg fun h => hslot h.1]
    exact sameSlots_departed (fun h => hslot h.2) path a

/-- What a departure leaves, once it is known who is told. -/
theorem departs_notifyAll {outcome : Outcome} {ids : List ClientId} (hr : r.census.Coherent)
    (hc : r.client? id = some c)
    (houtcome : outcome =
      if (r.slots c.path).get c.id = some id ∧ c.role? = some .responder ∧
        (r.slots c.path).get .initiator = none then .error .noInitiator else .ok ())
    (hnodup : ids.Nodup) (hmem : ∀ other, other ∈ ids ↔ r.Hears id c other) :
    r.Departs id c outcome ((r.departed id c).notifyAll ids (.disconnected c.id)) := by
  have hself : id ∉ ids := fun h => not_hears_self hr hc ((hmem id).mp h)
  have hregistry : ((r.departed id c).notifyAll ids (.disconnected c.id)).registry =
      (r.departed id c).registry := congrArg Census.registry (census_notifyAll ..)
  have hclient := client?_departed r id
  refine ⟨houtcome, fun path a => ?_, fun key path => ?_, fun path p hp => ?_, ?_, fun other o hhears ho => ?_,
    fun other hne hhears => ?_, ⟨ids, hnodup, hmem, ?_⟩, ?_⟩
  · rw [slots_of_registry hregistry]
    exact slots_departed hr hc path a
  · rw [hregistry, slots_of_registry hregistry]
    exact lookup_departed hr
  · rw [hregistry, slots_of_registry hregistry]
    exact path?_departed hr hp
  · rw [client?_notifyAll hself, hclient, if_pos rfl, hc, Option.map_some]
  · have hne : id ≠ other := fun heq => not_hears_self hr hc (heq ▸ hhears)
    rw [client?_notifyAll_of_mem hnodup ((hmem other).mpr hhears), hclient, if_neg hne, ho, Option.map_some]
  · rw [client?_notifyAll (mt (hmem other).mp hhears), hclient, if_neg (Ne.symm hne)]
  · rw [pending_notifyAll, jobs_departed]
  · -- Telling them changes clients and jobs alone, and departing the registry besides.
    rw [hregistry]
    refine (notifyAll_eq ..).trans ?_
    generalize ((r.departed id c).notifyAll ids _).clients = clients
    generalize ((r.departed id c).notifyAll ids _).jobs = jobs
    rw [departed_eq]
    rfl

theorem departs_disconnected (hr : r.census.Coherent) (hc : r.client? id = some c) :
    r.Departs id c (r.disconnected id).1 (r.disconnected id).2 := by
  by_cases hslot : (r.slots c.path).get c.id = some id
  · obtain ⟨hauth, role, hrole, hkind⟩ := owner_of_get hr hc hslot
    have hdeparted := (moves_departed hc).coherent hr
    rw [disconnected_of_get hc hauth hslot hrole, announce_eq]
    refine departs_notifyAll hr hc ?_ (nodup_audience hdeparted ..) fun other =>
      mem_audience_departed hauth hslot hrole hkind
    -- The initiator's address is not the one that a responder gave up.
    have hinitiator : role = .responder → ((r.departed id c).slots c.path).initiator =
        (r.slots c.path).get .initiator := by
      rintro rfl
      refine (slots_departed hr hc ..).trans (if_neg ?_)
      rintro ⟨-, -, heq⟩
      rw [← heq] at hkind
      cases hkind
    cases role with
    | initiator => simp [hrole]
    | responder => simp [hslot, hrole, hinitiator rfl]
  · have hnobody : ∀ other, other ∈ ([] : List ClientId) ↔ r.Hears id c other := fun other =>
      iff_of_false List.not_mem_nil fun h => by cases h <;> contradiction
    rw [disconnected_of_evicted hc fun h => hslot h.2]
    exact departs_notifyAll hr hc (if_neg fun h => hslot h.1).symm List.nodup_nil hnobody

theorem isPrunable_departed (hr : r.census.Coherent) (id : ClientId) (c : Client) :
    (r.departed id c).registry.isPrunable c.path = false := by
  obtain ⟨g, hregistry, hsound, -⟩ := registry_departed hr id c
  rw [hregistry]
  exact Registry.isPrunable_prune hsound c.path

theorem registry_disconnected (hc : r.client? id = some c) :
    (r.disconnected id).2.registry = (r.departed id c).registry := by
  rcases disconnected_cases r id with ⟨hnone, -⟩ | ⟨d, outcome, hd, -, heq⟩ |
    ⟨d, role, outcome, hd, -, -, -, heq⟩
  · cases hc.symm.trans hnone
  · cases hc.symm.trans hd
    rw [heq]
  · cases hc.symm.trans hd
    rw [heq]
    exact congrArg Census.registry (census_announce ..)

/-- Departing once more does nothing. -/
theorem disconnected_disconnected (hr : r.census.Coherent) (hc : r.client? id = some c) :
    (r.disconnected id).2.disconnected id = (.ok (), (r.disconnected id).2) := by
  have hdeparts := departs_disconnected hr hc
  have hpruned : (r.disconnected id).2.registry.isPrunable c.path = false := by
    rw [registry_disconnected hc]
    exact isPrunable_departed hr id c
  -- If the client had its address, it was this one, and it is free now.
  have hslot : ((r.disconnected id).2.slots c.path).get c.id ≠ some id := by
    rw [hdeparts.slots]
    split
    · nofun
    · next hnot => exact fun hget => hnot ⟨hget, rfl, rfl⟩
  rw [disconnected_of_evicted hdeparts.self fun hget => hslot hget.2,
    departed_eq_self hdeparts.self rfl hslot hpruned]

/-- An answer that was put off for a client does nothing once the client has gone. -/
theorem sendServerAuth_of_gone (h : r.Gone id) :
    r.sendServerAuth id = (.ok (), r) ∧ r.runJob (.answer id) = r := by
  obtain ⟨c, hc, hgone⟩ := h
  have hsend : r.sendServerAuth id = (.ok (), r) := by simp only [sendServerAuth, hc, hgone, if_true]
  exact ⟨hsend, by simp only [runJob, hsend]⟩

/-- **A departure removes the client that leaves and tells the other side, and is final.** Whatever happened
before, if the client has its address this is freed, and no other one; every responder hears of an initiator,
and the initiator of a responder, once and nobody else, and a responder that finds no initiator is reported an
error. If the client does not have its address, nobody loses his and nobody hears of it, whoever has the
address now. Either way the client's path is taken out if it was registered and nobody is left on it. To depart
once more does nothing, and neither does the answer that was put off for the client, whatever happens first. -/
theorem disconnected_run (service : Service) (actions : List Action) (id : ClientId) (c : Client)
    (hc : ((new service).run actions).client? id = some c) :
    ((new service).run actions).Departs id c (((new service).run actions).disconnected id).1
      (((new service).run actions).disconnected id).2 ∧
    (((new service).run actions).disconnected id).2.disconnected id =
      (.ok (), (((new service).run actions).disconnected id).2) ∧
    ∀ later, ((((new service).run actions).disconnected id).2.run later).sendServerAuth id =
        (.ok (), (((new service).run actions).disconnected id).2.run later) ∧
      ((((new service).run actions).disconnected id).2.run later).runJob (.answer id) =
        (((new service).run actions).disconnected id).2.run later := by
  have hr := coherent_run service actions
  generalize (new service).run actions = r at hc hr ⊢
  have hgone : (r.disconnected id).2.Gone id := gone_of_disconnect hc
  exact ⟨departs_disconnected hr hc, disconnected_disconnected hr hc, fun later =>
    sendServerAuth_of_gone (hgone.run (coherent_perform hr (.disconnect id)) later)⟩

/-- The responder whom the displaced initiator would drop has its address, and departs from it. -/
theorem disconnected_run_displaced : ∃ id c, Displaced.relay.client? id = some c ∧
    (Displaced.relay.slots c.path).get c.id = some id ∧
    Displaced.relay.Departs id c (Displaced.relay.disconnected id).1 (Displaced.relay.disconnected id).2 := by
  obtain ⟨d, -, -, -, -, a, reason, d', victim, hu, hvictim⟩ := Displaced.drops
  obtain ⟨p, c, hc, ho⟩ := occupant_of_get (coherent_run Displaced.service Displaced.actions) hvictim
  have hslot : (Displaced.relay.slots c.path).get c.id = some victim := by
    rw [ho.path_eq, ho.id_eq]
    exact hvictim
  exact ⟨victim, c, hc, hslot, (disconnected_run Displaced.service Displaced.actions victim c hc).1⟩

end Relay

end Rendezvous
