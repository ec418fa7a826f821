import Mathlib.Data.List.Nodup
import Rendezvous.MessagePack.Record
import Rendezvous.Proofs.MessagePack.RoundTrip

/-!
# Records that were written

A record is written as a map with its names. Whoever knows some names reads the fields with these names,
and passes over the others; so a reader that only looks at one field and a reader that knows them all
agree about it.
-/

namespace Rendezvous

theorem Text.utf8_inj {s t : String} : Text.utf8 s = Text.utf8 t ↔ s = t := by
  constructor
  · intro h
    have hs := Text.ofUtf8?_utf8 s
    rw [h, Text.ofUtf8?_utf8] at hs
    exact (Option.some.inj hs).symm
  · rintro rfl
    rfl

namespace MessagePack.Record

variable {r : Record} {names : List String}

/-- A name is found among the names by its text. -/
theorem fieldOf?_ofText (names : List String) (name : String) :
    fieldOf? names (.ofText name) = some (if name ∈ names then some name else none) := by
  show some (names.find? fun other => Text.utf8 other == Text.utf8 name) = _
  congr 1
  split
  · next hmem =>
    have hfound : (names.find? fun other => Text.utf8 other == Text.utf8 name).isSome = true :=
      List.find?_isSome.mpr ⟨name, hmem, beq_self_eq_true _⟩
    obtain ⟨found, hfind⟩ := Option.isSome_iff_exists.mp hfound
    have heq := List.find?_some hfind
    rw [beq_iff_eq, Text.utf8_inj] at heq
    rw [hfind, heq]
  · next hmem =>
    rw [List.find?_eq_none]
    intro other hother heq
    rw [beq_iff_eq, Text.utf8_inj] at heq
    exact hmem (heq ▸ hother)

theorem named?_toValue (r : Record) (names : List String) :
    named? names (r.map fun (name, value) => (.ofText name, value)) =
      some (r.filter fun field => field.1 ∈ names) := by
  induction r with
  | nil => rfl
  | cons field r ih =>
    obtain ⟨name, value⟩ := field
    rw [List.map_cons, named?, fieldOf?_ofText, ih, List.filter_cons]
    by_cases hmem : name ∈ names <;> simp [hmem]

/-- **A record that was written is read back**, as far as its fields are known. -/
theorem read?_write (hfits : r.toValue.Fits maxLevels) (hnodup : (r.map Prod.fst).Nodup)
    (names : List String) (rest : Bytes) :
    read? names (r.write ++ rest) = some (r.filter fun field => field.1 ∈ names) := by
  have hnames : ((r.filter fun field => field.1 ∈ names).map Prod.fst).Nodup :=
    hnodup.sublist (List.filter_sublist.map _)
  rw [read?, write, MessagePack.read?_write hfits, Option.bind_some, toValue, ofValue?,
    named?_toValue]
  exact Option.bind_eq_some_iff.mpr ⟨_, rfl,
    Option.bind_eq_some_iff.mpr ⟨(), if_pos hnames, rfl⟩⟩

theorem write_ne_nil (r : Record) : r.write ≠ [] := by
  have hhead : ∀ n, writeMapCount n ≠ [] := by
    intro n
    unfold writeMapCount
    split
    · exact List.cons_ne_nil _ _
    split <;> exact List.cons_ne_nil _ _
  rw [write, toValue, Value.write]
  exact List.append_ne_nil_of_left_ne_nil (hhead _) _

/-- What fits into a record. -/
theorem fits (hsize : r.length < 2 ^ 32) (hnames : ∀ field ∈ r, (Text.utf8 field.1).length < 2 ^ 32)
    (hvalues : ∀ field ∈ r, field.2.Fits 1022) : r.toValue.Fits maxLevels := by
  refine .map ?_ ?_ ?_
  · rw [List.length_map]
    exact hsize
  · intro entry hentry
    obtain ⟨field, hfield, rfl⟩ := List.mem_map.mp hentry
    exact .str (hnames field hfield)
  · intro entry hentry
    obtain ⟨field, hfield, rfl⟩ := List.mem_map.mp hentry
    exact hvalues field hfield

/-- Each field that is read from the entries of a map is the value of one of them. -/
theorem exists_of_named? {entries : List (Value × Value)} (h : named? names entries = some r)
    {field : String × Value} (hfield : field ∈ r) : ∃ e ∈ entries, e.2 = field.2 := by
  induction entries generalizing r with
  | nil =>
    cases h
    cases hfield
  | cons e entries ih =>
    obtain ⟨key, value⟩ := e
    obtain ⟨name, -, h⟩ := Option.bind_eq_some_iff.mp h
    obtain ⟨others, hothers, h⟩ := Option.bind_eq_some_iff.mp h
    cases name with
    | none =>
      cases h
      obtain ⟨e, he, heq⟩ := ih hothers hfield
      exact ⟨e, .tail _ he, heq⟩
    | some name =>
      cases h
      rcases List.mem_cons.mp hfield with rfl | hfield
      · exact ⟨(key, value), .head _, rfl⟩
      · obtain ⟨e, he, heq⟩ := ih hothers hfield
        exact ⟨e, .tail _ he, heq⟩

/-- What is read into a record can be written. -/
theorem fits_of_read? {bytes : Bytes} (h : read? names bytes = some r) {field : String × Value}
    (hfield : field ∈ r) : ∃ levels, field.2.Fits levels := by
  obtain ⟨v, hv, h⟩ := Option.bind_eq_some_iff.mp h
  have hfits := MessagePack.fits_of_read? hv
  cases v with
  | map entries =>
    obtain ⟨record, hrecord, h⟩ := Option.bind_eq_some_iff.mp h
    obtain ⟨-, -, h⟩ := Option.bind_eq_some_iff.mp h
    cases h
    obtain ⟨e, he, heq⟩ := exists_of_named? hrecord hfield
    cases hfits with
    | map _ _ hvalues => exact ⟨_, heq ▸ hvalues e he⟩
  | array items =>
    obtain ⟨-, heq⟩ := Option.ite_none_right_eq_some.mp h
    cases heq
    cases hfits with
    | array _ hitems => exact ⟨_, hitems _ (List.of_mem_zip hfield).2⟩
  | _ => cases h

theorem mem_of_lookup {name : String} {v : Value} (h : r.lookup name = some v) : (name, v) ∈ r := by
  obtain ⟨before, after, rfl, -⟩ := List.lookup_eq_some_iff.mp h
  exact List.mem_append_right _ (.head _)

/-- A field that is read has a value that can be written. -/
theorem fits_of_required? {α : Type} {bytes : Bytes} (h : read? names bytes = some r) {name : String}
    {convert : Value → Option α} {a : α} (hread : r.required? name convert = some a) :
    ∃ v levels, v.Fits levels ∧ convert v = some a := by
  obtain ⟨v, hv, hconvert⟩ := Option.bind_eq_some_iff.mp hread
  obtain ⟨levels, hfits⟩ := fits_of_read? h (mem_of_lookup hv)
  exact ⟨v, levels, hfits, hconvert⟩

theorem fits_of_optional? {α : Type} {bytes : Bytes} (h : read? names bytes = some r) {name : String}
    {convert : Value → Option α} {a : α} (hread : r.optional? name convert = some (some a)) :
    ∃ v levels, v.Fits levels ∧ convert v = some a := by
  unfold optional? at hread
  split at hread
  · cases hread
  · cases hread
  · next v _ hv =>
    obtain ⟨levels, hfits⟩ := fits_of_read? h (mem_of_lookup hv)
    obtain ⟨b, hconvert, heq⟩ := Option.map_eq_some_iff.mp hread
    cases heq
    exact ⟨v, levels, hfits, hconvert⟩

end MessagePack.Record

end Rendezvous
