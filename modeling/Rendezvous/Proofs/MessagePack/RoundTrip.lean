import Rendezvous.MessagePack.Writer
import Rendezvous.Proofs.MessagePack.Grammar

/-!
# Values that were written

What is written for a value is one of its forms, the shortest. So every value whose sizes and numbers have
a form in MessagePack is read back from what was written, and whatever stands behind it is left over. What
such values are is said by `Value.Fits`, along the nesting of containers; the proof is an induction on it,
with one lemma for the head of each kind of value.

* **`Value.Fits`** — the values that can be written, nested at most so many levels deep.
* **`readWithin_write`** — they are read back.
* **`fits_of_read?`** — no others are read.
-/

namespace Rendezvous.MessagePack

/-! ## Heads -/

namespace Head.Spelled

variable {n : Nat}

theorem writeMapCount (h : n < 2 ^ 32) : (Head.map n).Spelled (MessagePack.writeMapCount n) := by
  unfold MessagePack.writeMapCount
  split
  · next hn => exact .fixmap hn
  split
  · next hn => exact .sized (by simp [sizedMarkers]) hn
  · exact .sized (by simp [sizedMarkers]) h

theorem writeArrayCount (h : n < 2 ^ 32) : (Head.array n).Spelled (MessagePack.writeArrayCount n) := by
  unfold MessagePack.writeArrayCount
  split
  · next hn => exact .fixarray hn
  split
  · next hn => exact .sized (by simp [sizedMarkers]) hn
  · exact .sized (by simp [sizedMarkers]) h

theorem writeStrSize (h : n < 2 ^ 32) : (Head.str n).Spelled (MessagePack.writeStrSize n) := by
  unfold MessagePack.writeStrSize
  split
  · next hn => exact .fixstr hn
  split
  · next hn => exact .sized (by simp [sizedMarkers]) hn
  split
  · next hn => exact .sized (by simp [sizedMarkers]) hn
  · exact .sized (by simp [sizedMarkers]) h

theorem writeBinSize (h : n < 2 ^ 32) : (Head.bin n).Spelled (MessagePack.writeBinSize n) := by
  unfold MessagePack.writeBinSize
  split
  · next hn => exact .sized (by simp [sizedMarkers]) hn
  split
  · next hn => exact .sized (by simp [sizedMarkers]) hn
  · exact .sized (by simp [sizedMarkers]) h

theorem writeExtSize (h : n < 2 ^ 32) : (Head.ext n).Spelled (MessagePack.writeExtSize n) := by
  unfold MessagePack.writeExtSize
  by_cases hfixed : n = 1 ∨ n = 2 ∨ n = 4 ∨ n = 8 ∨ n = 16
  · rcases hfixed with rfl | rfl | rfl | rfl | rfl <;> exact .fixext (by decide)
  · simp only [not_or] at hfixed
    obtain ⟨h1, h2, h4, h8, h16⟩ := hfixed
    rw [if_neg h1, if_neg h2, if_neg h4, if_neg h8, if_neg h16]
    split
    · next hn => exact .sized (by simp [sizedMarkers]) hn
    split
    · next hn => exact .sized (by simp [sizedMarkers]) hn
    · exact .sized (by simp [sizedMarkers]) h

/-- An unsigned number behind a marker. -/
theorem unsigned {marker : UInt8} {width : Nat}
    (h : (marker, width, fun n => Head.value (.unsigned n)) ∈ sizedMarkers) (hn : n < 256 ^ width) :
    (Head.value (.unsigned n)).Spelled (marked marker width n) :=
  .sized h hn

theorem writeNat (h : n < 2 ^ 64) : (Head.value (.unsigned n)).Spelled (MessagePack.writeNat n) := by
  unfold MessagePack.writeNat
  split
  · next hn => exact .fixnat hn
  split
  · next hn => exact unsigned (by simp [sizedMarkers]) hn
  split
  · next hn => exact unsigned (by simp [sizedMarkers]) hn
  split
  · next hn => exact unsigned (by simp [sizedMarkers]) hn
  · exact unsigned (by simp [sizedMarkers]) h

theorem writeInt {n : Int} (hlow : -0x8000000000000000 ≤ n) (hhigh : n < 0x8000000000000000) :
    (Head.value (.signed n)).Spelled (MessagePack.writeInt n) := by
  unfold MessagePack.writeInt
  split
  · next hn => exact .fixint hn.1 hn.2
  split
  · next hn =>
    have hmarker : (0xd0, 1, 0x80) ∈ signedMarkers := by decide
    exact .signed hmarker hn.1 hn.2
  split
  · next hn =>
    have hmarker : (0xd1, 2, 0x8000) ∈ signedMarkers := by decide
    exact .signed hmarker hn.1 hn.2
  split
  · next hn =>
    have hmarker : (0xd2, 4, 0x80000000) ∈ signedMarkers := by decide
    exact .signed hmarker hn.1 hn.2
  · have hmarker : (0xd3, 8, 0x8000000000000000) ∈ signedMarkers := by decide
    exact .signed hmarker hlow hhigh

end Head.Spelled

/-! ## Values -/

theorem writeItems_eq (items : List Value) : writeItems items = items.flatMap Value.write := by
  induction items with
  | nil => rfl
  | cons v items ih => rw [writeItems, ih, List.flatMap_cons]

theorem writeEntries_eq (entries : List (Value × Value)) :
    writeEntries entries = entries.flatMap fun e => e.1.write ++ e.2.write := by
  induction entries with
  | nil => rfl
  | cons e entries ih => rw [writeEntries, ih, List.flatMap_cons]

/-- The values that can be written: their numbers and sizes are in range, and containers are nested at
most so many levels deep. -/
inductive Value.Fits : Nat → Value → Prop where
  | nil {levels : Nat} : Fits levels .nil
  | bool {levels : Nat} (b : Bool) : Fits levels (.bool b)
  | unsigned {levels n : Nat} (h : n < 2 ^ 64) : Fits levels (.unsigned n)
  | signed {levels : Nat} {n : Int} (hlow : -0x8000000000000000 ≤ n) (hhigh : n < 0x8000000000000000) :
      Fits levels (.signed n)
  | float32 {levels : Nat} (bits : Octets 4) : Fits levels (.float32 bits)
  | float64 {levels : Nat} (bits : Octets 8) : Fits levels (.float64 bits)
  | str {levels : Nat} {bytes : Bytes} (h : bytes.length < 2 ^ 32) : Fits levels (.str bytes)
  | bin {levels : Nat} {bytes : Bytes} (h : bytes.length < 2 ^ 32) : Fits levels (.bin bytes)
  | array {levels : Nat} {items : List Value} (hsize : items.length < 2 ^ 32)
      (hitems : ∀ v ∈ items, Fits levels v) : Fits (levels + 1) (.array items)
  | map {levels : Nat} {entries : List (Value × Value)} (hsize : entries.length < 2 ^ 32)
      (hkeys : ∀ e ∈ entries, Fits levels e.1) (hvalues : ∀ e ∈ entries, Fits levels e.2) :
      Fits (levels + 1) (.map entries)
  | ext {levels : Nat} (type : UInt8) {data : Bytes} (h : data.length < 2 ^ 32) :
      Fits (levels + 1) (.ext type data)

namespace Value

/-- Where each item of an array has one chosen form. -/
theorem Spelled.array_of {levels : Nat} {head : Bytes} {items : List Value} {form : Value → Bytes}
    (h : (Head.array items.length).Spelled head) (hitems : ∀ v ∈ items, v.Spelled levels (form v)) :
    (Value.array items).Spelled (levels + 1) (head ++ items.flatMap form) := by
  rw [← List.length_map (fun v => (v, form v))] at h
  have harray := Spelled.array h fun i hi => by
    obtain ⟨v, hv, rfl⟩ := List.mem_map.mp hi
    exact hitems v hv
  rw [List.map_map, List.flatMap_map] at harray
  have hid : items.map (Prod.fst ∘ fun v => (v, form v)) = items := List.map_id items
  rwa [hid] at harray

/-- Where each key and each value of a map has one chosen form. -/
theorem Spelled.map_of {levels : Nat} {head : Bytes} {entries : List (Value × Value)}
    {form : Value → Bytes} (h : (Head.map entries.length).Spelled head)
    (hkeys : ∀ e ∈ entries, e.1.Spelled levels (form e.1))
    (hvalues : ∀ e ∈ entries, e.2.Spelled levels (form e.2)) :
    (Value.map entries).Spelled (levels + 1)
      (head ++ entries.flatMap fun e => form e.1 ++ form e.2) := by
  rw [← List.length_map (fun e => (e, form e.1, form e.2))] at h
  have hmap := Spelled.map h
    (fun i hi => by
      obtain ⟨e, he, rfl⟩ := List.mem_map.mp hi
      exact hkeys e he)
    fun i hi => by
      obtain ⟨e, he, rfl⟩ := List.mem_map.mp hi
      exact hvalues e he
  rw [List.map_map, List.flatMap_map] at hmap
  have hid : entries.map (Prod.fst ∘ fun e => (e, form e.1, form e.2)) = entries :=
    List.map_id entries
  rwa [hid] at hmap

/-- What is written for a value is a form of it. -/
theorem Fits.spelled_write {levels : Nat} {v : Value} (h : v.Fits levels) :
    v.Spelled levels v.write := by
  induction h with
  | nil => exact .value .nil
  | bool b => exact .value (.bool b)
  | unsigned h => exact .value (.writeNat h)
  | signed hlow hhigh => exact .value (.writeInt hlow hhigh)
  | float32 bits => exact .value (.float32 bits)
  | float64 bits => exact .value (.float64 bits)
  | str h => exact .str (.writeStrSize h)
  | bin h => exact .bin (.writeBinSize h)
  | array hsize hitems ih =>
    rw [write, writeItems_eq]
    exact .array_of (.writeArrayCount hsize) ih
  | map hsize hkeys hvalues ihkeys ihvalues =>
    rw [write, writeEntries_eq]
    exact .map_of (.writeMapCount hsize) ihkeys ihvalues
  | ext type h => exact .ext type (.writeExtSize h)

end Value

/-- What a head tells is in range. -/
def Head.Fits : Head → Prop
  | .value v => ∀ levels, v.Fits levels
  | .str n | .bin n | .ext n | .array n | .map n => n < 2 ^ 32

theorem Head.Spelled.fits {head : Head} {form : Bytes} (h : head.Spelled form) : head.Fits := by
  have hsize : ∀ {n bound : Nat}, bound ≤ 2 ^ 32 → n < bound → n < 2 ^ 32 := by omega
  cases h with
  | nil => exact fun _ => .nil
  | bool b => exact fun _ => .bool b
  | fixnat hn => exact fun _ => .unsigned (by omega)
  | fixint hlow hhigh => exact fun _ => .signed (by omega) (by omega)
  | fixmap hn | fixarray hn => exact hsize (by decide) hn
  | fixstr hn => exact hsize (by decide) hn
  | @fixext marker n hmarker =>
    have all : ∀ x ∈ extMarkers, x.2 < 2 ^ 32 := by decide
    exact all _ hmarker
  | @sized marker width n head hmarker hn =>
    simp only [sizedMarkers, List.mem_cons, List.not_mem_nil, or_false, Prod.mk.injEq] at hmarker
    rcases hmarker with ⟨-, rfl, rfl⟩ | ⟨-, rfl, rfl⟩ | ⟨-, rfl, rfl⟩ | ⟨-, rfl, rfl⟩ |
      ⟨-, rfl, rfl⟩ | ⟨-, rfl, rfl⟩ | ⟨-, rfl, rfl⟩ | ⟨-, rfl, rfl⟩ | ⟨-, rfl, rfl⟩ | ⟨-, rfl, rfl⟩ |
      ⟨-, rfl, rfl⟩ | ⟨-, rfl, rfl⟩ | ⟨-, rfl, rfl⟩ | ⟨-, rfl, rfl⟩ | ⟨-, rfl, rfl⟩ | ⟨-, rfl, rfl⟩ |
      ⟨-, rfl, rfl⟩
    all_goals first | exact hsize (by decide) hn | exact fun _ => .unsigned (by omega)
  | @signed marker width half n hmarker hlow hhigh =>
    have all : ∀ x ∈ signedMarkers, x.2.2 ≤ 2 ^ 63 := by decide
    have hhalf : half ≤ 2 ^ 63 := all _ hmarker
    exact fun _ => .signed (by omega) (by omega)
  | float32 bits => exact fun _ => .float32 bits
  | float64 bits => exact fun _ => .float64 bits

/-- What has a form can be written. -/
theorem Value.Spelled.fits {levels : Nat} {v : Value} {form : Bytes} (h : v.Spelled levels form) :
    v.Fits levels := by
  induction h with
  | @value levels v form h => exact h.fits levels
  | str h => exact .str h.fits
  | bin h => exact .bin h.fits
  | array h hitems ih =>
    refine .array ?_ fun v hv => ?_
    · rw [List.length_map]
      exact h.fits
    · obtain ⟨i, hi, rfl⟩ := List.mem_map.mp hv
      exact ih i hi
  | map h hkeys hvalues ihkeys ihvalues =>
    refine .map ?_ (fun e he => ?_) fun e he => ?_
    · rw [List.length_map]
      exact h.fits
    · obtain ⟨i, hi, rfl⟩ := List.mem_map.mp he
      exact ihkeys i hi
    · obtain ⟨i, hi, rfl⟩ := List.mem_map.mp he
      exact ihvalues i hi
  | ext type h => exact .ext type h.fits

/-- **What was written is read back**, and what stands behind it is left over. -/
theorem readWithin_write {levels : Nat} {v : Value} (h : v.Fits levels) (rest : Bytes) :
    readWithin levels (v.write ++ rest) = some (v, rest) :=
  readWithin_spelled h.spelled_write rest

theorem read?_write {v : Value} (h : v.Fits maxLevels) (rest : Bytes) :
    read? (v.write ++ rest) = some v := by
  rw [read?, readWithin_write h, Option.map_some]

/-- What is read can be written. -/
theorem fits_of_read? {bytes : Bytes} {v : Value} (h : read? bytes = some v) : v.Fits maxLevels := by
  obtain ⟨⟨v, rest⟩, hread, rfl⟩ := Option.map_eq_some_iff.mp h
  obtain ⟨form, hform, -⟩ := readWithin_eq_some.mp hread
  exact hform.fits

end Rendezvous.MessagePack
