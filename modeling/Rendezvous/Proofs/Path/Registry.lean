import Rendezvous.Path.Registry

/-!
# What a registry keeps

A registry finds each registered path under its key, and no path that was taken out.

* **`Registry.Sound`** — a key is registered once, and what is registered is a path of that key that
  was not taken out.
* **`Registry.Complete`** — every path that was not taken out is registered. It holds as long as paths
  are held only by `getOrCreate`.
* **`isPrunable_prune`** — pruning once is pruning for good.
* **`find?_hex`** — finding a path by its digits is looking its key up, since different keys have
  different digits.
-/

namespace Rendezvous

/-! ## Keys and their digits -/

namespace Hex

theorem encodeDigits_injective {a b : Bytes} (h : encodeDigits a = encodeDigits b) : a = b := by
  have hdecode := congrArg decode h
  rw [decode_encodeDigits, decode_encodeDigits] at hdecode
  exact Except.ok.inj hdecode

theorem encode_injective {a b : Bytes} (h : encode a = encode b) : a = b := by
  apply encodeDigits_injective
  -- A byte is found again in its character.
  have hchars : ∀ x y : UInt8, Char.ofNat x.toNat = Char.ofNat y.toNat → x = y := by
    have all : ∀ n : Fin 256, (Char.ofNat n).toNat = n := by decide +kernel
    intro x y hxy
    apply UInt8.toNat_inj.mp
    exact (all x.toFin).symm.trans ((congrArg Char.toNat hxy).trans (all y.toFin))
  exact (List.map_inj_right hchars).mp (String.ofList_injective h)

end Hex

theorem PublicKey.hex_inj {a b : PublicKey} : a.hex = b.hex ↔ a = b := by
  constructor
  · intro h
    have hbytes : a.octets = b.octets := Octets.ext_toList (Hex.encode_injective h)
    cases a; cases b
    exact congrArg PublicKey.mk hbytes
  · rintro rfl
    rfl

namespace Registry

variable {α : Type u} {r : Registry α}

theorem find?_hex (r : Registry α) (key : PublicKey) : r.find? key.hex = r.live.lookup key := by
  unfold find?
  induction r.live with
  | nil => rfl
  | cons entry rest ih =>
    obtain ⟨other, id⟩ := entry
    by_cases h : key = other
    · subst h
      simp
    · have hhex : (other.hex == key.hex) = false := by
        simpa [PublicKey.hex_inj] using fun e => h e.symm
      rw [List.find?_cons_of_neg (by simp [hhex]), ih, List.lookup_cons, beq_false_of_ne h]

/-! ## Creating and taking out -/

theorem modify_modify (r : Registry α) (id : PathId) (f g : Path α → Path α) :
    (r.modify id f).modify id g = r.modify id (g ∘ f) := by
  have hpaths : ((r.modify id f).modify id g).paths = (r.modify id (g ∘ f)).paths := by
    apply Array.ext_getElem?
    intro i
    simp only [modify, Array.getElem?_modify]
    split
    · rw [Option.map_map]
    · rfl
  calc (r.modify id f).modify id g
      = { r with paths := ((r.modify id f).modify id g).paths } := rfl
    _ = r.modify id (g ∘ f) := by rw [hpaths]; rfl

theorem modify_eq_self {id : PathId} {f : Path α → Path α} (h : ∀ p, r.path? id = some p → f p = p) :
    r.modify id f = r := by
  have hpaths : (r.modify id f).paths = r.paths := by
    apply Array.ext_getElem?
    intro i
    have hi := path?_modify r id ⟨i⟩ f
    by_cases heq : id = ⟨i⟩
    · subst heq
      refine hi.trans ?_
      rw [if_pos rfl]
      cases hp : r.path? ⟨i⟩ with
      | none => exact hp.symm
      | some p =>
        rw [Option.map_some, h p hp]
        exact hp.symm
    · exact hi.trans (if_neg heq)
  calc r.modify id f = { r with paths := (r.modify id f).paths } := rfl
    _ = r := by rw [hpaths]

theorem setSlots_setSlots (r : Registry α) (id : PathId) (s t : Slots α) :
    (r.setSlots id s).setSlots id t = r.setSlots id t :=
  modify_modify ..

theorem setSlots_eq_self {id : PathId} {slots : Slots α} (h : ∀ p, r.path? id = some p → p.slots = slots) :
    r.setSlots id slots = r :=
  modify_eq_self fun p hp => by rw [← h p hp]

/-- The path of a key is registered already, or it is created. -/
theorem getOrCreate_cases (r : Registry α) (key : PublicKey) :
    (∃ id, r.live.lookup key = some id ∧ r.getOrCreate key = (id, r)) ∨
    (r.live.lookup key = none ∧ r.getOrCreate key =
      (⟨r.paths.size⟩, ⟨r.paths.push (.new key (r.created + 1)), (key, ⟨r.paths.size⟩) :: r.live,
        r.created + 1⟩)) := by
  unfold getOrCreate
  cases h : r.live.lookup key with
  | some id => exact .inl ⟨id, rfl, rfl⟩
  | none => exact .inr ⟨rfl, rfl⟩

theorem lookup_getOrCreate (r : Registry α) (key : PublicKey) :
    (r.getOrCreate key).2.live.lookup key = some (r.getOrCreate key).1 := by
  rcases getOrCreate_cases r key with ⟨id, h, heq⟩ | ⟨-, heq⟩
  · rw [heq]
    exact h
  · rw [heq]
    exact List.lookup_cons_self

/-- No path that is held already changes, and a path that is not is new. -/
theorem path?_getOrCreate {key : PublicKey} {id : PathId} {p : Path α} :
    (r.getOrCreate key).2.path? id = some p ↔ r.path? id = some p ∨
      (r.live.lookup key = none ∧ id = ⟨r.paths.size⟩ ∧ p = .new key (r.created + 1)) := by
  rcases getOrCreate_cases r key with ⟨id', h, heq⟩ | ⟨h, heq⟩
  · simp [heq, h]
  · cases id
    simp only [heq, h, path?, Array.getElem?_push, true_and, PathId.mk.injEq]
    split
    · next hi => simp [hi, eq_comm]
    · next hi => simp [hi]

/-- A path is taken out only where it is registered and no one has an address on it. -/
theorem prune_cases (r : Registry α) (id : PathId) :
    (r.prune id).2 = r ∨
    (∃ p, r.path? id = some p ∧ r.live.lookup p.key = some id ∧ p.isEmpty = true ∧
      (r.prune id).2 = { r.modify id fun p => { p with orphan := true } with
        live := r.live.filter fun (_, other) => other ≠ id }) := by
  unfold prune
  split
  · next h =>
    unfold isPrunable at h
    split at h
    · next p hp =>
      simp only [Bool.and_eq_true, beq_iff_eq] at h
      exact .inr ⟨p, hp, h.1, h.2, rfl⟩
    · cases h
  · exact .inl rfl

theorem isPrunable_iff {id : PathId} : r.isPrunable id = true ↔
    ∃ p, r.path? id = some p ∧ r.live.lookup p.key = some id ∧ ∀ a, p.slots.get a = none := by
  unfold isPrunable
  cases r.path? id with
  | none => simp
  | some p => simp [Path.isEmpty, Slots.isEmpty_iff]

theorem path?_prune_eq (r : Registry α) (id other : PathId) :
    (r.prune id).2.path? other =
      if r.isPrunable id = true ∧ id = other then
        (r.path? other).map fun p => { p with orphan := true }
      else r.path? other := by
  unfold prune
  cases r.isPrunable id with
  | false => simp
  | true =>
    show (r.modify id _).path? other = _
    simp only [path?_modify, true_and]

/-- Pruning leaves the paths as they are, except that one without clients may be taken out. -/
theorem path?_prune (r : Registry α) (id other : PathId) :
    (r.prune id).2.path? other = r.path? other ∨
    ∃ p, r.path? other = some p ∧ p.isEmpty = true ∧
      (r.prune id).2.path? other = some { p with orphan := true } := by
  rcases prune_cases r id with heq | ⟨p, hp, -, hempty, heq⟩
  · exact .inl (by rw [heq])
  · have hpath : (r.prune id).2.path? other =
        (r.modify id fun p => { p with orphan := true }).path? other := by rw [heq]; rfl
    rw [hpath, path?_modify]
    by_cases hother : id = other
    · subst hother
      exact .inr ⟨p, hp, hempty, by simp [hp]⟩
    · exact .inl (if_neg hother)

/-! ## Soundness -/

/-- A registry whose entries are right. -/
structure Sound (r : Registry α) : Prop where
  keys : (r.live.map Prod.fst).Nodup
  registered : ∀ key id, (key, id) ∈ r.live → ∃ p, r.path? id = some p ∧ p.key = key ∧ p.orphan = false

/-- A registry in which no path is missing. -/
def Complete (r : Registry α) : Prop :=
  ∀ id p, r.path? id = some p → p.orphan = false → (p.key, id) ∈ r.live

theorem lookup_eq_some_iff {key : PublicKey} {id : PathId} (h : r.Sound) :
    r.live.lookup key = some id ↔ (key, id) ∈ r.live := by
  -- Only that no key occurs twice is needed of the entries.
  have hkeys := h.keys
  generalize r.live = live at hkeys ⊢
  induction live with
  | nil => simp
  | cons entry rest ih =>
    obtain ⟨other, id'⟩ := entry
    rw [List.map_cons, List.nodup_cons] at hkeys
    rw [List.lookup_cons, List.mem_cons, Prod.mk.injEq]
    by_cases heq : key = other
    · subst heq
      have hrest : (key, id) ∉ rest := fun hmem => hkeys.1 (List.mem_map.mpr ⟨_, hmem, rfl⟩)
      simp [hrest, eq_comm]
    · simpa [beq_false_of_ne heq, heq] using ih hkeys.2

theorem Sound.path_of_lookup (h : r.Sound) {key : PublicKey} {id : PathId}
    (hlookup : r.live.lookup key = some id) :
    ∃ p, r.path? id = some p ∧ p.key = key ∧ p.orphan = false :=
  h.registered key id ((lookup_eq_some_iff h).mp hlookup)

theorem Sound.lookup_of_path (h : r.Sound) (hcomplete : r.Complete) {id : PathId} {p : Path α}
    (hp : r.path? id = some p) (ho : p.orphan = false) : r.live.lookup p.key = some id :=
  (lookup_eq_some_iff h).mpr (hcomplete id p hp ho)

theorem sound_empty : (empty : Registry α).Sound :=
  ⟨List.nodup_nil, nofun⟩

theorem complete_empty : (empty : Registry α).Complete := by
  intro id p h
  simp [empty, path?] at h

theorem Sound.getOrCreate (h : r.Sound) (key : PublicKey) : (r.getOrCreate key).2.Sound := by
  constructor
  · rcases getOrCreate_cases r key with ⟨id, -, heq⟩ | ⟨hnone, heq⟩
    · rw [heq]
      exact h.keys
    · rw [heq, List.map_cons, List.nodup_cons]
      refine ⟨fun hmem => ?_, h.keys⟩
      obtain ⟨⟨key', id⟩, hmem, heq⟩ := List.mem_map.mp hmem
      cases heq
      rw [(lookup_eq_some_iff h).mpr hmem] at hnone
      cases hnone
  · intro key' id hmem
    have hcases : (key', id) ∈ r.live ∨
        (r.live.lookup key = none ∧ key' = key ∧ id = ⟨r.paths.size⟩) := by
      rcases getOrCreate_cases r key with ⟨id', -, heq⟩ | ⟨hnone, heq⟩
      · rw [heq] at hmem
        exact .inl hmem
      · rw [heq, List.mem_cons, Prod.mk.injEq] at hmem
        exact hmem.elim (fun h => .inr ⟨hnone, h⟩) .inl
    rcases hcases with hold | ⟨hnone, rfl, rfl⟩
    · obtain ⟨p, hp, hkey, ho⟩ := h.registered key' id hold
      exact ⟨p, path?_getOrCreate.mpr (.inl hp), hkey, ho⟩
    · exact ⟨_, path?_getOrCreate.mpr (.inr ⟨hnone, rfl, rfl⟩), rfl, rfl⟩

theorem Complete.getOrCreate (h : r.Complete) (key : PublicKey) : (r.getOrCreate key).2.Complete := by
  intro id p hp ho
  rcases getOrCreate_cases r key with ⟨id', -, heq⟩ | ⟨hnone, heq⟩
  · rw [heq] at hp ⊢
    exact h id p hp ho
  · rcases path?_getOrCreate.mp hp with hold | ⟨-, rfl, rfl⟩
    · rw [heq]
      exact List.mem_cons_of_mem _ (h id p hold ho)
    · rw [heq]
      exact List.mem_cons_self

theorem Sound.modify (h : r.Sound) (id : PathId) {f : Path α → Path α}
    (hf : ∀ p, (f p).key = p.key ∧ (f p).orphan = p.orphan) : (r.modify id f).Sound := by
  refine ⟨h.keys, fun key other hmem => ?_⟩
  obtain ⟨p, hp, hkey, ho⟩ := h.registered key other hmem
  rw [path?_modify, hp]
  by_cases heq : id = other
  · exact ⟨f p, by simp [heq], (hf p).1.trans hkey, (hf p).2.trans ho⟩
  · exact ⟨p, by simp [heq], hkey, ho⟩

theorem Sound.setSlots (h : r.Sound) (id : PathId) (slots : Slots α) : (r.setSlots id slots).Sound :=
  h.modify id fun _ => ⟨rfl, rfl⟩

theorem Complete.setSlots (h : r.Complete) (id : PathId) (slots : Slots α) :
    (r.setSlots id slots).Complete := by
  intro other p hp ho
  rw [path?_setSlots] at hp
  split at hp
  · obtain ⟨q, hq, rfl⟩ := Option.map_eq_some_iff.mp hp
    exact h other q hq ho
  · exact h other p hp ho

theorem Sound.prune (h : r.Sound) (id : PathId) : (r.prune id).2.Sound := by
  rcases prune_cases r id with heq | ⟨p, -, -, -, heq⟩
  · rw [heq]
    exact h
  · rw [heq]
    constructor
    · exact h.keys.sublist (List.filter_sublist.map Prod.fst)
    · intro key other hmem
      obtain ⟨hmem, hne⟩ := List.mem_filter.mp hmem
      have hne : id ≠ other := fun e => by simp [e] at hne
      obtain ⟨q, hq, hkey, ho⟩ := h.registered key other hmem
      refine ⟨q, ?_, hkey, ho⟩
      show (r.modify id _).path? other = _
      rw [path?_modify, if_neg hne, hq]

theorem Complete.prune (h : r.Complete) (id : PathId) : (r.prune id).2.Complete := by
  rcases prune_cases r id with heq | ⟨p, -, -, -, heq⟩
  · rw [heq]
    exact h
  · rw [heq]
    intro other q hq ho
    replace hq : (r.modify id _).path? other = some q := hq
    rw [path?_modify] at hq
    split at hq
    · -- The path itself was taken out, so it need not be registered.
      obtain ⟨q', -, rfl⟩ := Option.map_eq_some_iff.mp hq
      cases ho
    · next hne =>
      refine List.mem_filter.mpr ⟨h other q hq ho, ?_⟩
      simpa using fun e => hne e.symm

/-- A key is registered after a pruning as it was before, unless it was that of the path. -/
theorem lookup_prune (h : r.Sound) (id : PathId) (key : PublicKey) :
    (r.prune id).2.live.lookup key =
      if r.isPrunable id = true ∧ r.live.lookup key = some id then none else r.live.lookup key := by
  cases hprunable : r.isPrunable id with
  | false => simp [prune, hprunable]
  | true =>
    have hpruned : (r.prune id).2.live = r.live.filter fun (_, other) => other ≠ id := by
      simp [prune, hprunable]
    have hlookup : ∀ other, (r.prune id).2.live.lookup key = some other ↔
        r.live.lookup key = some other ∧ other ≠ id := fun other => by
      rw [lookup_eq_some_iff (h.prune id), lookup_eq_some_iff h, hpruned, List.mem_filter,
        decide_eq_true_eq]
    cases hkey : r.live.lookup key with
    | none =>
      simp only [hkey, reduceCtorEq, false_and, iff_false] at hlookup
      simpa using Option.eq_none_iff_forall_ne_some.mpr hlookup
    | some found =>
      by_cases heq : found = id
      · subst heq
        simp only [hkey, Option.some.injEq, ne_eq] at hlookup
        rw [if_pos ⟨rfl, rfl⟩]
        exact Option.eq_none_iff_forall_ne_some.mpr fun other hother =>
          ((hlookup other).mp hother).2 ((hlookup other).mp hother).1.symm
      · rw [if_neg (by simp [heq]), hlookup]
        exact ⟨hkey, heq⟩

/-- Pruning once is pruning for good: what was taken out is not registered any more. -/
theorem isPrunable_prune (h : r.Sound) (id : PathId) : (r.prune id).2.isPrunable id = false := by
  rw [← Bool.not_eq_true, isPrunable_iff]
  rintro ⟨p, hp, hlookup, hempty⟩
  rw [lookup_prune h] at hlookup
  split at hlookup
  · cases hlookup
  · next hnot =>
    refine hnot ⟨isPrunable_iff.mpr ?_, hlookup⟩
    rcases path?_prune r id id with heq | ⟨q, hq, hqempty, heq⟩
    · exact ⟨p, heq.symm.trans hp, hlookup, hempty⟩
    · cases heq.symm.trans hp
      exact ⟨q, hq, hlookup, hempty⟩

end Registry

end Rendezvous
