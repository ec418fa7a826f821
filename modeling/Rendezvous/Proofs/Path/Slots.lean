import Rendezvous.Path.Slots

/-!
# Who has which address

What the operations on the addresses of a path do to them, and how they are listed.

* **`Slots.add_eq_ok`**, **`Slots.add_eq_error_iff`** — a responder gets an address that is free, unless
  none is.
* **`Slots.pairwise_responders`** — responders are listed in the order of their addresses.
-/

namespace Rendezvous

namespace Address

/-- The responder addresses are listed in ascending order. -/
theorem pairwise_responders : responders.Pairwise fun a b => a.value < b.value := by
  have hascending : (List.range' 2 254).Pairwise (· < ·) := List.pairwise_lt_range'
  refine List.pairwise_map.mpr (hascending.imp_of_mem fun hm hn hlt => ?_)
  rw [List.mem_range'_1] at hm hn
  rw [UInt8.lt_iff_toNat_lt, UInt8.toNat_ofNat', UInt8.toNat_ofNat']
  omega

theorem nodup_responders : responders.Nodup :=
  pairwise_responders.imp fun {a b} hlt heq => by
    rw [heq] at hlt
    exact absurd hlt (UInt8.lt_irrefl _)

end Address

namespace Slots

variable {α : Type u} {s s' : Slots α} {a : Address} {v : α}

/-! ## Single addresses -/

theorem get_setInitiator (s : Slots α) (occupant : α) (a : Address) :
    (s.setInitiator occupant).2.get a = if a = .initiator then some occupant else s.get a :=
  get_set ..

theorem get_removeIf (s : Slots α) (a b : Address) (test : α → Bool) :
    (s.removeIf a test).2.get b =
      if b = a ∧ (s.get a).any test = true then none else s.get b := by
  unfold removeIf
  split
  · next h =>
    rw [del, get_set]
    simp [h]
  · next h => simp [h]

/-! ## Giving out addresses -/

/-- All responder addresses are tried, wherever one begins. -/
theorem mem_rotation_iff {last : Address} : a ∈ rotation last ↔ a.isResponder = true := by
  rw [rotation, List.mem_append, List.mem_filter, List.mem_filter, Address.mem_responders_iff,
    ← and_or_left, and_iff_left_iff_imp]
  intro _
  rw [decide_eq_true_eq, decide_eq_true_eq]
  exact UInt8.lt_or_le _ _

theorem add_eq_ok {occupant : α} (h : s.add occupant = .ok (a, s')) :
    a.kind = .responder ∧ s.get a = none ∧
      ∀ b, s'.get b = if b = a then some occupant else s.get b := by
  unfold add at h
  split at h
  · next a' hfind =>
    cases h
    have hresponder := mem_rotation_iff.mp (List.mem_of_find?_eq_some hfind)
    have hfree := List.find?_some hfind
    exact ⟨(Address.isResponder_iff a).mp hresponder, by simpa using hfree, fun b => get_set s a b _⟩
  · cases h

/-- Where nobody gets an address, all are taken. -/
theorem add_eq_error_iff {occupant : α} {e : SlotsFull} :
    s.add occupant = .error e ↔ ∀ a, a.isResponder = true → (s.get a).isSome = true := by
  have htaken : ((rotation s.lastAllocated).find? fun a => (s.get a).isNone) = none ↔
      ∀ a, a.isResponder = true → (s.get a).isSome = true := by
    simp only [List.find?_eq_none, mem_rotation_iff, Option.isNone_iff_eq_none,
      Option.isSome_iff_ne_none, ne_eq]
  rw [← htaken]
  unfold add
  split
  · next a hfind => simp [hfind]
  · next hnone => simp [hnone]

/-! ## Lists of responders -/

theorem mem_responderIds_iff (s : Slots α) (a : Address) :
    a ∈ s.responderIds ↔ a.isResponder = true ∧ (s.get a).isSome = true := by
  constructor
  · intro h
    obtain ⟨⟨b, v⟩, hmem, rfl⟩ := List.mem_map.mp h
    obtain ⟨hresponder, hget⟩ := (s.mem_responders_iff b v).mp hmem
    exact ⟨hresponder, by rw [hget]; rfl⟩
  · rintro ⟨hresponder, hsome⟩
    obtain ⟨v, hget⟩ := Option.isSome_iff_exists.mp hsome
    exact List.mem_map.mpr ⟨(a, v), (s.mem_responders_iff a v).mpr ⟨hresponder, hget⟩, rfl⟩

theorem pairwise_responderIds (s : Slots α) :
    s.responderIds.Pairwise fun a b => a.value < b.value := by
  have hsublist : ∀ as : List Address,
      ((as.filterMap fun a => (s.get a).map (a, ·)).map Prod.fst).Sublist as := by
    intro as
    induction as with
    | nil => exact .slnil
    | cons a rest ih =>
      rw [List.filterMap_cons]
      cases s.get a with
      | none => exact ih.cons a
      | some v => exact ih.cons_cons a
  exact Address.pairwise_responders.sublist (hsublist Address.responders)

/-- The responders are listed in the order of their addresses. -/
theorem pairwise_responders (s : Slots α) :
    s.responders.Pairwise fun x y => x.1.value < y.1.value :=
  (List.pairwise_map (f := Prod.fst)).mp (pairwise_responderIds s)

/-- A responder finds an address, unless all are taken. -/
theorem add_ok (h : s.responders.length < 254) (occupant : α) :
    ∃ result, s.add occupant = .ok result := by
  cases hadd : s.add occupant with
  | ok result => exact ⟨result, rfl⟩
  | error e =>
    -- Then there would be as many responders as there are addresses.
    have htaken := add_eq_error_iff.mp hadd
    have hlength : s.responders.length = Address.responders.length := by
      unfold responders
      rw [List.length_filterMap_eq_countP, List.countP_eq_length]
      intro a ha
      rw [Option.isSome_map]
      exact htaken a ((Address.mem_responders_iff a).mp ha)
    rw [hlength] at h
    simp [Address.responders] at h

end Slots

end Rendezvous
