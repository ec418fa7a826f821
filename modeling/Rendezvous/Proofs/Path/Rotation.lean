import Mathlib.Logic.Function.Iterate
import Rendezvous.Proofs.Path.Slots

/-!
# Responder addresses are given out in turn

The responder addresses form a cycle, in which `0x02` comes behind `0xff`. A new responder gets the first
free address of the cycle behind the one that was given out last, so an address that was just given up is
the last one to be given out again.

The addresses are tried in two stretches, those behind the last one and those up to it, and together these
are the cycle once around. The last one is known from the history alone, since nothing but giving out an
address changes it.

* **`Address.following`** — the cycle: what comes behind an address.
* **`Slots.rotation_eq`** — the addresses are tried in the order of the cycle.
* **`Slots.Operation`**, **`Slots.run`** — what can be done with addresses, and sequences of it.
* **`Slots.lastAllocated_run`** — the last address is the last one of those that were given out.
* **`Slots.add_run`** — who gets which address, after every sequence of operations.
-/

namespace Rendezvous

/-! ## The cycle -/

namespace Address

variable {a b last : Address} {first count : Nat}

/-- The responder address that comes behind an address in the cycle. The first one also comes behind the
initiator's address. -/
def following (a : Address) : Address :=
  if a.value = 0xff then ⟨0x02⟩ else ⟨a.value + 1⟩

theorem toNat_inj : a.value.toNat = b.value.toNat ↔ a = b := by
  rw [UInt8.toNat_inj]
  exact ⟨fun h => by cases a; cases b; cases h; rfl, fun h => by rw [h]⟩

theorem toNat_pos_of_isResponder (h : a.isResponder = true) : 2 ≤ a.value.toNat := by
  simpa [isResponder, UInt8.le_iff_toNat_le] using h

theorem toNat_following (a : Address) :
    a.following.value.toNat = if a.value.toNat = 255 then 2 else a.value.toNat + 1 := by
  have hlt := a.value.toNat_lt
  unfold following
  by_cases h : a.value = 0xff
  · rw [if_pos h, h]
    rfl
  · have hne : a.value.toNat ≠ 255 := fun h' => h (UInt8.toNat_inj.mp h')
    rw [if_neg h, if_neg hne, UInt8.toNat_add]
    show (a.value.toNat + 1) % 256 = a.value.toNat + 1
    omega

/-- Going along the cycle is counting modulo the number of responder addresses. -/
theorem toNat_iterate_following (h : 0 < a.value.toNat) (n : Nat) :
    (following^[n + 1] a).value.toNat = 2 + (a.value.toNat + n + 253) % 254 := by
  have hlt := a.value.toNat_lt
  induction n with
  | zero =>
    rw [Function.iterate_one, toNat_following]
    split <;> omega
  | succ n ih =>
    rw [Function.iterate_succ_apply', toNat_following, ih]
    split <;> omega

/-- Addresses in a row. -/
def stretch (first count : Nat) : List Address :=
  (List.range' first count).map fun n => ⟨UInt8.ofNat n⟩

theorem toNat_of_mem_stretch (h : a ∈ stretch first count) (hle : first + count ≤ 256) :
    first ≤ a.value.toNat ∧ a.value.toNat < first + count := by
  obtain ⟨n, hn, rfl⟩ := List.mem_map.mp h
  rw [List.mem_range'_1] at hn
  show first ≤ (UInt8.ofNat n).toNat ∧ (UInt8.ofNat n).toNat < first + count
  rw [UInt8.toNat_ofNat']
  omega

/-- An address cuts the responder addresses into two stretches. -/
theorem responders_eq_append (h : 0 < last.value.toNat) :
    responders = stretch 2 (last.value.toNat - 1) ++
      stretch (last.value.toNat + 1) (255 - last.value.toNat) := by
  have hlt := last.value.toNat_lt
  have hstart : last.value.toNat + 1 = 2 + (last.value.toNat - 1) := by omega
  have hcount : 254 = (last.value.toNat - 1) + (255 - last.value.toNat) := by omega
  rw [stretch, stretch, ← List.map_append, hstart, List.range'_append_1, ← hcount]
  rfl

end Address

namespace Slots

variable {α : Type u} {s s' : Slots α} {a b last : Address} {occupant : α}

/-- The two stretches are tried in exchanged order. -/
theorem rotation_eq_append (h : 0 < last.value.toNat) :
    rotation last = Address.stretch (last.value.toNat + 1) (255 - last.value.toNat) ++
      Address.stretch 2 (last.value.toNat - 1) := by
  have hlt := last.value.toNat_lt
  have hupTo : ∀ a ∈ Address.stretch 2 (last.value.toNat - 1), a.value ≤ last.value := by
    intro a ha
    have hrange := Address.toNat_of_mem_stretch ha (by omega)
    rw [UInt8.le_iff_toNat_le]
    omega
  have hbehind : ∀ a ∈ Address.stretch (last.value.toNat + 1) (255 - last.value.toNat),
      last.value < a.value := by
    intro a ha
    have hrange := Address.toNat_of_mem_stretch ha (by omega)
    rw [UInt8.lt_iff_toNat_lt]
    omega
  rw [rotation, Address.responders_eq_append h, List.filter_append, List.filter_append]
  congr 1
  · rw [List.filter_eq_nil_iff.mpr fun a ha => ?_, List.filter_eq_self.mpr fun a ha => ?_, List.nil_append]
    · exact decide_eq_true (hbehind a ha)
    · simpa using hupTo a ha
  · rw [List.filter_eq_self.mpr fun a ha => ?_, List.filter_eq_nil_iff.mpr fun a ha => ?_, List.append_nil]
    · simpa using hbehind a ha
    · exact decide_eq_true (hupTo a ha)

/-- **The addresses are tried in the order of the cycle**, from behind the last one on and once around. -/
theorem rotation_eq (h : 0 < last.value.toNat) :
    rotation last = (List.range 254).map fun n => Address.following^[n + 1] last := by
  have hlt := last.value.toNat_lt
  rw [rotation_eq_append h, Address.stretch, Address.stretch, ← List.map_append]
  refine List.ext_getElem ?_ fun n hn hn' => ?_
  · rw [List.length_map, List.length_append, List.length_range', List.length_range', List.length_map,
      List.length_range]
    omega
  · rw [List.length_map, List.length_range] at hn'
    rw [← Address.toNat_inj, List.getElem_map, List.getElem_map, List.getElem_range,
      Address.toNat_iterate_following h, List.getElem_append, UInt8.toNat_ofNat']
    -- In the first stretch the numbers go on from the last address, in the second one from `0x02`.
    split
    · next hfirst =>
      rw [List.length_range'] at hfirst
      rw [List.getElem_range']
      omega
    · next hsecond =>
      rw [List.length_range'] at hsecond
      rw [List.getElem_range', List.length_range']
      omega

/-- All responder addresses are on the cycle. -/
theorem exists_iterate_following (h : 0 < last.value.toNat) (ha : a.isResponder = true) :
    ∃ n < 254, a = Address.following^[n + 1] last := by
  have hmem : a ∈ rotation last := mem_rotation_iff.mpr ha
  rw [rotation_eq h, List.mem_map] at hmem
  obtain ⟨n, hn, rfl⟩ := hmem
  exact ⟨n, List.mem_range.mp hn, rfl⟩

/-! ## Who comes next -/

/-- An address is the first free one of the cycle behind another. -/
structure ComesNext (s : Slots α) (last a : Address) : Prop where
  isResponder : a.isResponder = true
  free : s.get a = none
  first : ∃ n < 254, a = Address.following^[n + 1] last ∧
    ∀ m < n, (s.get (Address.following^[m + 1] last)).isSome = true

theorem lastAllocated_of_add (h : s.add occupant = .ok (a, s')) : s'.lastAllocated = a := by
  unfold add at h
  split at h
  · cases h
    rfl
  · cases h

/-- Whoever is added gets the next address. -/
theorem comesNext_of_add (hlast : 0 < s.lastAllocated.value.toNat) (h : s.add occupant = .ok (a, s')) :
    s.ComesNext s.lastAllocated a := by
  obtain ⟨hkind, hfree, -⟩ := add_eq_ok h
  unfold add at h
  split at h
  · next a' hfind =>
    cases h
    -- What is found first is found first on the cycle, by its distance from the last one.
    rw [rotation_eq hlast, List.find?_map, Option.map_eq_some_iff] at hfind
    obtain ⟨n, hn, rfl⟩ := hfind
    obtain ⟨-, hrange, hbefore⟩ := List.find?_range_eq_some.mp hn
    refine ⟨(Address.isResponder_iff _).mpr hkind, hfree, n, List.mem_range.mp hrange, rfl, fun m hm => ?_⟩
    simpa [Option.isSome_iff_ne_none] using hbefore m hm
  · cases h

/-- The last address comes next only if all others are taken. -/
theorem ComesNext.isSome_of_eq (h : s.ComesNext last last) (hb : b.isResponder = true) (hne : b ≠ last) :
    (s.get b).isSome = true := by
  have hlast := Address.toNat_pos_of_isResponder h.isResponder
  have hlt := last.value.toNat_lt
  obtain ⟨n, hn, hcycle, hbefore⟩ := h.first
  have hpos : 0 < last.value.toNat := by omega
  obtain ⟨m, hm, rfl⟩ := exists_iterate_following hpos hb
  -- It is the whole cycle that was gone around, and another address comes before its end.
  have hnumber := Address.toNat_iterate_following hpos n
  have hnumber' := Address.toNat_iterate_following hpos m
  rw [← hcycle] at hnumber
  have hdiffer : (Address.following^[m + 1] last).value.toNat ≠ last.value.toNat :=
    fun heq => hne (Address.toNat_inj.mp heq)
  exact hbefore m (by omega)

/-! ## Sequences of operations -/

/-- Something that is done with the addresses of a path. -/
inductive Operation (α : Type u) where
  | add (occupant : α)
  | setInitiator (occupant : α)
  | del (address : Address)
  | removeIf (address : Address) (test : α → Bool)

/-- Who has which address after an operation. -/
def perform (s : Slots α) : Operation α → Slots α
  | .add occupant =>
    match s.add occupant with
    | .ok (_, s) => s
    | .error _ => s
  | .setInitiator occupant => (s.setInitiator occupant).2
  | .del a => (s.del a).2
  | .removeIf a test => (s.removeIf a test).2

/-- Who has which address after some operations, in their order. -/
def run (s : Slots α) (operations : List (Operation α)) : Slots α :=
  operations.foldl perform s

/-- The responder address that an operation gives out, if it gives one out. -/
def given? (s : Slots α) : Operation α → Option Address
  | .add occupant =>
    match s.add occupant with
    | .ok (a, _) => some a
    | .error _ => none
  | _ => none

/-- The responder addresses that are given out by some operations, in order. -/
def given (s : Slots α) : List (Operation α) → List Address
  | [] => []
  | op :: rest => (s.given? op).toList ++ (s.perform op).given rest

/-- The responder address that was given out last, or the initiator's address if none was. -/
def latest (operations : List (Operation α)) : Address :=
  ((empty : Slots α).given operations).getLastD .initiator

theorem perform_of_ok (h : s.add occupant = .ok (a, s')) : s.perform (.add occupant) = s' := by
  simp only [perform, h]

theorem perform_of_error {e : SlotsFull} (h : s.add occupant = .error e) :
    s.perform (.add occupant) = s := by
  simp only [perform, h]

theorem given?_eq_some {op : Operation α} :
    s.given? op = some a ↔ ∃ occupant s', op = .add occupant ∧ s.add occupant = .ok (a, s') := by
  cases op with
  | add occupant =>
    cases hadd : s.add occupant with
    | error e => simp [given?, hadd]
    | ok result => simp [given?, hadd, Prod.ext_iff]
  | _ => simp [given?]

theorem run_cons (s : Slots α) (op : Operation α) (rest : List (Operation α)) :
    s.run (op :: rest) = (s.perform op).run rest := rfl

theorem run_append (s : Slots α) (operations rest : List (Operation α)) :
    s.run (operations ++ rest) = (s.run operations).run rest :=
  List.foldl_append

theorem run_concat (s : Slots α) (operations : List (Operation α)) (op : Operation α) :
    s.run (operations ++ [op]) = (s.run operations).perform op :=
  run_append ..

/-- Only giving out an address changes the last one. -/
theorem lastAllocated_perform (s : Slots α) (op : Operation α) :
    (s.perform op).lastAllocated = (s.given? op).getD s.lastAllocated := by
  cases op with
  | add occupant =>
    cases hadd : s.add occupant with
    | error e => simp only [perform, given?, hadd, Option.getD_none]
    | ok result =>
      obtain ⟨a, s'⟩ := result
      simp only [perform, given?, hadd, Option.getD_some]
      exact lastAllocated_of_add hadd
  | removeIf a test =>
    show (s.removeIf a test).2.lastAllocated = s.lastAllocated
    unfold removeIf
    split <;> rfl
  | _ => rfl

/-- **The last address is the last one of those that were given out.** Induction on the operations. -/
theorem lastAllocated_run (s : Slots α) (operations : List (Operation α)) :
    (s.run operations).lastAllocated = (s.given operations).getLastD s.lastAllocated := by
  induction operations generalizing s with
  | nil => rfl
  | cons op rest ih =>
    show ((s.perform op).run rest).lastAllocated = _
    rw [ih, lastAllocated_perform, given]
    cases s.given? op with
    | none => rfl
    | some a => exact (List.getLastD_cons ..).symm

/-- No address in front of the initiator's is ever the last one. -/
theorem toNat_lastAllocated_pos (h : 0 < s.lastAllocated.value.toNat) (operations : List (Operation α)) :
    0 < (s.run operations).lastAllocated.value.toNat := by
  induction operations generalizing s with
  | nil => exact h
  | cons op rest ih =>
    refine ih ?_
    rw [lastAllocated_perform]
    cases hgiven : s.given? op with
    | none => exact h
    | some a =>
      obtain ⟨v, s₁, -, hadd⟩ := given?_eq_some.mp hgiven
      have hvalue := Address.toNat_pos_of_isResponder ((Address.isResponder_iff a).mpr (add_eq_ok hadd).1)
      show 0 < a.value.toNat
      omega

theorem toNat_latest_pos (operations : List (Operation α)) : 0 < (latest operations).value.toNat := by
  have hlast : (empty.run operations).lastAllocated = latest operations := lastAllocated_run ..
  have hfirst : 0 < Address.initiator.value.toNat := by decide
  rw [← hlast]
  exact toNat_lastAllocated_pos hfirst operations

/-- **Responder addresses are given out in turn.** After every sequence of operations, a responder finds no
address exactly if all 254 are taken, and then nothing changes. Otherwise it gets the first free address of
the cycle behind the one that was given out last, which is that one itself only if all others are taken;
nobody else's address changes. In either case the responders are listed afterwards, all of them and in the
order of their addresses. -/
theorem add_run (operations : List (Operation α)) (occupant : α) :
    ((empty.run operations).add occupant = .error {} ↔
      ∀ a, a.isResponder = true → ((empty.run operations).get a).isSome = true) ∧
    ((∀ a, a.isResponder = true → ((empty.run operations).get a).isSome = true) →
      (empty.run operations).perform (.add occupant) = empty.run operations) ∧
    ((∃ a, a.isResponder = true ∧ (empty.run operations).get a = none) → ∃ a s',
      (empty.run operations).add occupant = .ok (a, s') ∧
      (empty.run operations).perform (.add occupant) = s' ∧
      (empty.run operations).ComesNext (latest operations) a ∧
      (a = latest operations → ∀ b, b.isResponder = true → b ≠ a →
        ((empty.run operations).get b).isSome = true) ∧
      ∀ b, s'.get b = if b = a then some occupant else (empty.run operations).get b) ∧
    ((empty.run operations).perform (.add occupant)).responders.Pairwise
      (fun x y => x.1.value < y.1.value) ∧
    ∀ a v, (a, v) ∈ ((empty.run operations).perform (.add occupant)).responders ↔
      a.isResponder = true ∧ ((empty.run operations).perform (.add occupant)).get a = some v := by
  have hlast : (empty.run operations).lastAllocated = latest operations := lastAllocated_run ..
  refine ⟨add_eq_error_iff, fun hfull => ?_, fun hroom => ?_, pairwise_responders _, mem_responders_iff _⟩
  · exact perform_of_error (add_eq_error_iff (e := {}).mpr hfull)
  · cases hadd : (empty.run operations).add occupant with
    | error e =>
      obtain ⟨a, ha, hfree⟩ := hroom
      have htaken := add_eq_error_iff.mp hadd a ha
      rw [hfree] at htaken
      cases htaken
    | ok result =>
      obtain ⟨a, s'⟩ := result
      have hnext := comesNext_of_add (hlast ▸ toNat_latest_pos operations) hadd
      rw [hlast] at hnext
      refine ⟨a, s', rfl, perform_of_ok hadd, hnext, ?_, (add_eq_ok hadd).2.2⟩
      rintro rfl b hb hne
      exact hnext.isSome_of_eq hb hne

end Slots

end Rendezvous
