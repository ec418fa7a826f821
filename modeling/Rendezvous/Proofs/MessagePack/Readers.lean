import Rendezvous.Proofs.MessagePack.Presentation

/-!
# Readers that know different names

Two readers of one value need not know the same names. Where one of them knows only the first names of the
other, it takes each key of a map for the same field, as far as it knows this field, and it finds no field
twice if the other one does not. So it reads a part of the other one's record.

This fails for arrays, where a reader accepts no more items than it knows names. Still, two readers whose
first name is the same find the same value under it, whatever they know besides.

* **`ofValue?_map_of_known`** — a reader that knows only the first names reads a part of the record.
* **`lookup_first`** — readers with a common first name agree about it.
-/

namespace Rendezvous.MessagePack.Record

variable {r s : Record} {names known : List String} {name : String} {key : Value}

/-! ## Keys -/

theorem names_of_fieldOf? (h : fieldOf? names key = some (some name)) : Names names key name := by
  have hname : ∀ {text : Bytes}, names.find? (fun other => Text.utf8 other == text) = some name →
      name ∈ names ∧ Text.utf8 name = text := fun hfind =>
    ⟨List.mem_of_find?_eq_some hfind, by simpa using List.find?_some hfind⟩
  cases key with
  | str text =>
    obtain ⟨hmem, rfl⟩ := hname (Option.some.inj h)
    exact .str hmem
  | bin text =>
    obtain ⟨hmem, rfl⟩ := hname (Option.some.inj h)
    exact .bin hmem
  | unsigned i => exact .position (Option.some.inj h)
  | _ => cases h

theorem strange_of_fieldOf? (h : fieldOf? names key = some none) : Strange names key := by
  have hunknown : ∀ {text : Bytes}, names.find? (fun other => Text.utf8 other == text) = none →
      ∀ name ∈ names, Text.utf8 name ≠ text := fun hfind name hname => by
    simpa using List.find?_eq_none.mp hfind name hname
  cases key with
  | str text => exact .str (hunknown (Option.some.inj h))
  | bin text => exact .bin (hunknown (Option.some.inj h))
  | unsigned i => exact .position (List.getElem?_eq_none_iff.mp (Option.some.inj h))
  | _ => cases h

/-- A key that one reader accepts is accepted by a reader that knows only the first names, and taken for
the same field, if it is one of these. -/
theorem fieldOf?_of_known (hnodup : names.Nodup) (hknown : known <+: names) {found : Option String}
    (h : fieldOf? names key = some found) :
    fieldOf? known key = some (found.filter fun name => name ∈ known) := by
  cases found with
  | none => exact fieldOf?_of_strange hknown (strange_of_fieldOf? h)
  | some name =>
    rw [fieldOf?_of_names hnodup hknown (names_of_fieldOf? h), Option.filter_some]
    simp only [decide_eq_true_eq]

/-! ## Maps -/

theorem named?_of_known (hnodup : names.Nodup) (hknown : known <+: names)
    {entries : List (Value × Value)} (h : named? names entries = some r) :
    named? known entries = some (r.filter fun field => field.1 ∈ known) := by
  induction entries generalizing r with
  | nil =>
    cases h
    rfl
  | cons e entries ih =>
    obtain ⟨key, value⟩ := e
    obtain ⟨found, hfound, h⟩ := Option.bind_eq_some_iff.mp h
    obtain ⟨others, hothers, h⟩ := Option.bind_eq_some_iff.mp h
    rw [named?, fieldOf?_of_known hnodup hknown hfound, ih hothers]
    cases found with
    | none =>
      cases h
      rfl
    | some name =>
      cases h
      by_cases hmem : name ∈ known <;> simp [hmem, Option.filter_some]

/-- **A reader that knows only the first names reads a part of the record**: the fields that it knows. -/
theorem ofValue?_map_of_known (hnodup : names.Nodup) (hknown : known <+: names)
    {entries : List (Value × Value)} (h : ofValue? names (.map entries) = some r) :
    ofValue? known (.map entries) = some (r.filter fun field => field.1 ∈ known) := by
  obtain ⟨record, hrecord, h⟩ := Option.bind_eq_some_iff.mp h
  obtain ⟨_, hguard, h⟩ := Option.bind_eq_some_iff.mp h
  cases h
  have hrnodup : (r.map Prod.fst).Nodup := (Option.ite_none_right_eq_some.mp hguard).1
  have hkept : ((r.filter fun field => field.1 ∈ known).map Prod.fst).Nodup :=
    hrnodup.sublist (List.filter_sublist.map _)
  exact Option.bind_eq_some_iff.mpr ⟨_, named?_of_known hnodup hknown hrecord,
    Option.bind_eq_some_iff.mpr ⟨(), if_pos hkept, rfl⟩⟩

theorem lookup_filter_of_mem (h : name ∈ known) (r : Record) :
    (r.filter fun field => field.1 ∈ known).lookup name = r.lookup name := by
  induction r with
  | nil => rfl
  | cons field r ih =>
    obtain ⟨other, value⟩ := field
    by_cases hother : other ∈ known
    · rw [List.filter_cons, if_pos (decide_eq_true hother), List.lookup_cons, List.lookup_cons, ih]
    · have hne : name ≠ other := fun heq => hother (heq ▸ h)
      rw [List.filter_cons, if_neg (by simpa using hother), List.lookup_cons, beq_false_of_ne hne]
      exact ih

/-! ## A common first name -/

/-- **Readers with a common first name agree about it**: whatever they know besides, they find the same value
under it, be the record a map or an array. -/
theorem lookup_first {first : String} {more others : List String} (hmore : (first :: more).Nodup)
    (hothers : (first :: others).Nodup) {v : Value} (hr : ofValue? (first :: more) v = some r)
    (hs : ofValue? (first :: others) v = some s) : r.lookup first = s.lookup first := by
  cases v with
  | map entries =>
    -- A reader that knows nothing else reads a part of both records.
    have hpart := ofValue?_map_of_known hmore (List.prefix_append [first] more) hr
    rw [ofValue?_map_of_known hothers (List.prefix_append [first] others) hs] at hpart
    have hfirst := lookup_filter_of_mem (List.mem_singleton.mpr rfl : first ∈ [first])
    rw [← hfirst r, ← hfirst s, ← Option.some.inj hpart]
  | array items =>
    obtain ⟨-, heq⟩ := Option.ite_none_right_eq_some.mp hr
    obtain ⟨-, heq'⟩ := Option.ite_none_right_eq_some.mp hs
    cases heq
    cases heq'
    cases items with
    | nil => rfl
    | cons item items => simp
  | _ => cases hr

end Rendezvous.MessagePack.Record
