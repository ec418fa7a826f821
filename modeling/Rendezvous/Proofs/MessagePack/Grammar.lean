import Rendezvous.MessagePack.Reader
import Rendezvous.Proofs.Bytes.Endian

/-!
# The forms of MessagePack

One value has many forms: sizes and numbers may be written in any width that holds them, and small ones
in the marker itself. Here the forms are given as a relation, which knows nothing of the reader, and the
reader is shown to accept just these: it reads each form of a value, whatever stands behind it, and what it
reads is a form. So no two values share a form, and no form is the beginning of another one.

* **`Head.Spelled`**, **`Value.Spelled`** — the forms of heads, and of values that are nested at most so many
  levels deep.
* **`readHead_eq_some`**, **`readWithin_eq_some`** — they are what is read.
-/

namespace Rendezvous.MessagePack

/-! ## The forms of heads -/

/-- The markers behind which a number stands that is unsigned: how wide it is, and what it tells. -/
def sizedMarkers : List (UInt8 × Nat × (Nat → Head)) :=
  [(0xc4, 1, .bin), (0xc5, 2, .bin), (0xc6, 4, .bin), (0xc7, 1, .ext), (0xc8, 2, .ext), (0xc9, 4, .ext),
    (0xcc, 1, fun n => .value (.unsigned n)), (0xcd, 2, fun n => .value (.unsigned n)),
    (0xce, 4, fun n => .value (.unsigned n)), (0xcf, 8, fun n => .value (.unsigned n)),
    (0xd9, 1, .str), (0xda, 2, .str), (0xdb, 4, .str), (0xdc, 2, .array), (0xdd, 4, .array),
    (0xde, 2, .map), (0xdf, 4, .map)]

/-- The markers behind which a number in two's complement stands: how wide it is, and half of how many
there are. -/
def signedMarkers : List (UInt8 × Nat × Nat) :=
  [(0xd0, 1, 0x80), (0xd1, 2, 0x8000), (0xd2, 4, 0x80000000), (0xd3, 8, 0x8000000000000000)]

/-- The markers of extensions of a fixed size. -/
def extMarkers : List (UInt8 × Nat) :=
  [(0xd4, 1), (0xd5, 2), (0xd6, 4), (0xd7, 8), (0xd8, 16)]

/-- The forms of a head. -/
inductive Head.Spelled : Head → Bytes → Prop where
  | nil : Spelled (.value .nil) [0xc0]
  | bool (b : Bool) : Spelled (.value (.bool b)) [if b then 0xc3 else 0xc2]
  | fixnat {n : Nat} (h : n < 128) : Spelled (.value (.unsigned n)) [UInt8.ofNat n]
  | fixint {n : Int} (hlow : -32 ≤ n) (hhigh : n < 0) : Spelled (.value (.signed n)) [UInt8.ofInt n]
  | fixmap {n : Nat} (h : n < 16) : Spelled (.map n) [0x80 ||| UInt8.ofNat n]
  | fixarray {n : Nat} (h : n < 16) : Spelled (.array n) [0x90 ||| UInt8.ofNat n]
  | fixstr {n : Nat} (h : n < 32) : Spelled (.str n) [0xa0 ||| UInt8.ofNat n]
  | fixext {marker : UInt8} {n : Nat} (h : (marker, n) ∈ extMarkers) : Spelled (.ext n) [marker]
  | sized {marker : UInt8} {width n : Nat} {head : Nat → Head}
      (h : (marker, width, head) ∈ sizedMarkers) (hn : n < 256 ^ width) :
      Spelled (head n) (marker :: BigEndian.encode width n)
  | signed {marker : UInt8} {width half : Nat} {n : Int} (h : (marker, width, half) ∈ signedMarkers)
      (hlow : -(half : Int) ≤ n) (hhigh : n < half) :
      Spelled (.value (.signed n)) (marker :: BigEndian.encode width (n % (256 ^ width : Nat)).toNat)
  | float32 (bits : Octets 4) : Spelled (.value (.float32 bits)) (0xca :: bits.toList)
  | float64 (bits : Octets 8) : Spelled (.value (.float64 bits)) (0xcb :: bits.toList)

/-! ## Parts of a value -/

section Parts

variable {bytes rest : Bytes}

theorem split?_eq_some {n : Nat} {first : Bytes} :
    split? n bytes = some (first, rest) ↔ first.length = n ∧ bytes = first ++ rest := by
  unfold split?
  constructor
  · intro h
    obtain ⟨hlength, heq⟩ := Option.ite_none_right_eq_some.mp h
    cases heq
    exact ⟨hlength, (List.take_append_drop n bytes).symm⟩
  · rintro ⟨rfl, rfl⟩
    simp

theorem sized_eq_some {width : Nat} {head : Nat → Head} {h : Head} :
    sized width head bytes = some (h, rest) ↔
      ∃ n, n < 256 ^ width ∧ h = head n ∧ bytes = BigEndian.encode width n ++ rest := by
  unfold sized readNat
  simp only [Option.map_eq_some_iff, Prod.exists, Prod.mk.injEq]
  constructor
  · rintro ⟨n, _, ⟨first, _, hsplit, rfl, rfl⟩, rfl, rfl⟩
    obtain ⟨rfl, rfl⟩ := split?_eq_some.mp hsplit
    exact ⟨_, BigEndian.decode_lt first, rfl, by rw [BigEndian.encode_decode]⟩
  · rintro ⟨n, hn, rfl, rfl⟩
    refine ⟨n, rest, ⟨_, rest, split?_eq_some.mpr ⟨BigEndian.length_encode width n, rfl⟩, ?_, rfl⟩,
      rfl, rfl⟩
    rw [BigEndian.decode_encode, Nat.mod_eq_of_lt hn]

/-- A number in two's complement is read back. -/
theorem twosComplement_emod {width half : Nat} {n : Int} (hhalf : 256 ^ width = 2 * half)
    (hlow : -(half : Int) ≤ n) (hhigh : n < half) :
    twosComplement width (n % (256 ^ width : Nat)).toNat = n := by
  rw [twosComplement, Nat.pow_eq, hhalf]
  have hnonneg : 0 ≤ n % ((2 * half : Nat) : Int) := Int.emod_nonneg _ (by omega)
  rw [Int.toNat_of_nonneg hnonneg, Int.emod_bmod]
  refine Int.bmod_eq_of_le ?_ ?_ <;> omega

/-- Every number of a width is one in two's complement. -/
theorem emod_twosComplement {width half x : Nat} (hhalf : 256 ^ width = 2 * half)
    (hx : x < 256 ^ width) :
    -(half : Int) ≤ twosComplement width x ∧ twosComplement width x < half ∧
      (twosComplement width x % (256 ^ width : Nat)).toNat = x := by
  rw [twosComplement, Nat.pow_eq, hhalf]
  rw [hhalf] at hx
  have hpos : 0 < 2 * half := by omega
  refine ⟨?_, ?_, ?_⟩
  · have := Int.le_bmod (x := x) hpos
    omega
  · have := Int.bmod_lt (x := x) hpos
    omega
  · rw [Int.bmod_emod, Int.emod_eq_of_lt (by omega) (by omega), Int.toNat_natCast]

end Parts

/-! ## Heads -/

section Heads

variable {b : UInt8} {h : Head} {rest : Bytes}

theorem readHead_fixnat (h : b < 0x80) (rest : Bytes) :
    readHead (b :: rest) = some (.value (.unsigned b.toNat), rest) :=
  if_pos h

theorem readHead_fixmap (h80 : ¬ b < 0x80) (h : b < 0x90) (rest : Bytes) :
    readHead (b :: rest) = some (.map (b &&& 0x0f).toNat, rest) :=
  (if_neg h80).trans (if_pos h)

theorem readHead_fixarray (h80 : ¬ b < 0x80) (h90 : ¬ b < 0x90) (h : b < 0xa0) (rest : Bytes) :
    readHead (b :: rest) = some (.array (b &&& 0x0f).toNat, rest) :=
  (if_neg h80).trans ((if_neg h90).trans (if_pos h))

theorem readHead_fixstr (h80 : ¬ b < 0x80) (h90 : ¬ b < 0x90) (ha0 : ¬ b < 0xa0) (h : b < 0xc0)
    (rest : Bytes) : readHead (b :: rest) = some (.str (b &&& 0x1f).toNat, rest) :=
  (if_neg h80).trans ((if_neg h90).trans ((if_neg ha0).trans (if_pos h)))

theorem readHead_fixint (h : 0xe0 ≤ b) (rest : Bytes) :
    readHead (b :: rest) = some (.value (.signed (twosComplement 1 b.toNat)), rest) := by
  have hsmall : ∀ bound : UInt8, bound ≤ 0xe0 → ¬ b < bound := fun bound hbound hlt =>
    UInt8.not_lt.mpr (UInt8.le_trans hbound h) hlt
  refine (if_neg (hsmall 0x80 (by decide))).trans ((if_neg (hsmall 0x90 (by decide))).trans
    ((if_neg (hsmall 0xa0 (by decide))).trans ((if_neg (hsmall 0xc0 (by decide))).trans ?_)))
  -- All other markers are smaller.
  split
  all_goals first | rfl | exact absurd h (by decide)

theorem readHead_sized {marker : UInt8} {width : Nat} {head : Nat → Head}
    (h : (marker, width, head) ∈ sizedMarkers) (rest : Bytes) :
    readHead (marker :: rest) = sized width head rest := by
  simp only [sizedMarkers, List.mem_cons, List.not_mem_nil, or_false, Prod.mk.injEq] at h
  rcases h with ⟨rfl, rfl, rfl⟩ | ⟨rfl, rfl, rfl⟩ | ⟨rfl, rfl, rfl⟩ | ⟨rfl, rfl, rfl⟩ | ⟨rfl, rfl, rfl⟩ |
    ⟨rfl, rfl, rfl⟩ | ⟨rfl, rfl, rfl⟩ | ⟨rfl, rfl, rfl⟩ | ⟨rfl, rfl, rfl⟩ | ⟨rfl, rfl, rfl⟩ |
    ⟨rfl, rfl, rfl⟩ | ⟨rfl, rfl, rfl⟩ | ⟨rfl, rfl, rfl⟩ | ⟨rfl, rfl, rfl⟩ | ⟨rfl, rfl, rfl⟩ |
    ⟨rfl, rfl, rfl⟩ | ⟨rfl, rfl, rfl⟩
  all_goals rfl

theorem readHead_signed {marker : UInt8} {width half : Nat}
    (h : (marker, width, half) ∈ signedMarkers) (rest : Bytes) :
    256 ^ width = 2 * half ∧ readHead (marker :: rest) =
      sized width (fun n => .value (.signed (twosComplement width n))) rest := by
  simp only [signedMarkers, List.mem_cons, List.not_mem_nil, or_false, Prod.mk.injEq] at h
  rcases h with ⟨rfl, rfl, rfl⟩ | ⟨rfl, rfl, rfl⟩ | ⟨rfl, rfl, rfl⟩ | ⟨rfl, rfl, rfl⟩
  all_goals exact ⟨rfl, rfl⟩

theorem readHead_ext {marker : UInt8} {n : Nat} (h : (marker, n) ∈ extMarkers) (rest : Bytes) :
    readHead (marker :: rest) = some (.ext n, rest) := by
  simp only [extMarkers, List.mem_cons, List.not_mem_nil, or_false, Prod.mk.injEq] at h
  rcases h with ⟨rfl, rfl⟩ | ⟨rfl, rfl⟩ | ⟨rfl, rfl⟩ | ⟨rfl, rfl⟩ | ⟨rfl, rfl⟩
  all_goals rfl

theorem split?_append (first rest : Bytes) :
    split? first.length (first ++ rest) = some (first, rest) :=
  split?_eq_some.mpr ⟨rfl, rfl⟩

/-- Each form of a head is read. -/
theorem readHead_spelled {form : Bytes} (hform : h.Spelled form) (rest : Bytes) :
    readHead (form ++ rest) = some (h, rest) := by
  cases hform with
  | nil => rfl
  | bool b => cases b <;> rfl
  | @fixnat n hn =>
    have all : ∀ n : Fin 128, let b := UInt8.ofNat n.val
        b < 0x80 ∧ b.toNat = n.val := by decide +kernel
    obtain ⟨h80, hvalue⟩ := all ⟨n, hn⟩
    rw [List.singleton_append, readHead_fixnat h80, hvalue]
  | @fixint n hlow hhigh =>
    have all : ∀ k : Fin 32, let b := UInt8.ofInt ((k.val : Int) - 32)
        0xe0 ≤ b ∧ twosComplement 1 b.toNat = (k.val : Int) - 32 := by decide +kernel
    obtain ⟨hmarker, hvalue⟩ := all ⟨(n + 32).toNat, by omega⟩
    have hk : ((n + 32).toNat : Int) - 32 = n := by omega
    rw [hk] at hmarker hvalue
    rw [List.singleton_append, readHead_fixint hmarker, hvalue]
  | @fixmap n hn =>
    have all : ∀ n : Fin 16, let b := 0x80 ||| UInt8.ofNat n.val
        ¬ b < 0x80 ∧ b < 0x90 ∧ (b &&& 0x0f).toNat = n.val := by decide +kernel
    obtain ⟨h80, h90, hvalue⟩ := all ⟨n, hn⟩
    rw [List.singleton_append, readHead_fixmap h80 h90, hvalue]
  | @fixarray n hn =>
    have all : ∀ n : Fin 16, let b := 0x90 ||| UInt8.ofNat n.val
        ¬ b < 0x80 ∧ ¬ b < 0x90 ∧ b < 0xa0 ∧ (b &&& 0x0f).toNat = n.val := by decide +kernel
    obtain ⟨h80, h90, ha0, hvalue⟩ := all ⟨n, hn⟩
    rw [List.singleton_append, readHead_fixarray h80 h90 ha0, hvalue]
  | @fixstr n hn =>
    have all : ∀ n : Fin 32, let b := 0xa0 ||| UInt8.ofNat n.val
        ¬ b < 0x80 ∧ ¬ b < 0x90 ∧ ¬ b < 0xa0 ∧ b < 0xc0 ∧ (b &&& 0x1f).toNat = n.val := by
      decide +kernel
    obtain ⟨h80, h90, ha0, hc0, hvalue⟩ := all ⟨n, hn⟩
    rw [List.singleton_append, readHead_fixstr h80 h90 ha0 hc0, hvalue]
  | fixext hmarker => exact readHead_ext hmarker rest
  | @sized marker width n head hmarker hn =>
    rw [List.cons_append, readHead_sized hmarker]
    exact sized_eq_some.mpr ⟨n, hn, rfl, rfl⟩
  | @signed marker width half n hmarker hlow hhigh =>
    obtain ⟨hhalf, hread⟩ := readHead_signed hmarker
      (BigEndian.encode width (n % (256 ^ width : Nat)).toNat ++ rest)
    have hlt : n % ((256 ^ width : Nat) : Int) < (256 ^ width : Nat) :=
      Int.emod_lt_of_pos _ (by omega)
    have hnat : (n % ((256 ^ width : Nat) : Int)).toNat < 256 ^ width := by omega
    rw [List.cons_append, hread]
    exact sized_eq_some.mpr ⟨_, hnat, by rw [twosComplement_emod hhalf hlow hhigh], rfl⟩
  | float32 bits =>
    have hsplit := split?_append bits.toList rest
    rw [bits.length_toList] at hsplit
    show (split? 4 (bits.toList ++ rest)).map _ = _
    rw [hsplit, Option.map_some]
    dsimp only
    rw [Octets.fit_toList]
  | float64 bits =>
    have hsplit := split?_append bits.toList rest
    rw [bits.length_toList] at hsplit
    show (split? 8 (bits.toList ++ rest)).map _ = _
    rw [hsplit, Option.map_some]
    dsimp only
    rw [Octets.fit_toList]

/-- The markers from `0xc0` on, each of which is of one of six kinds. -/
theorem marker_cases (b : UInt8) (hb : ¬ b < 0xc0) :
    (∃ x ∈ sizedMarkers, x.1 = b) ∨ (∃ x ∈ signedMarkers, x.1 = b) ∨ (∃ x ∈ extMarkers, x.1 = b) ∨
      b ∈ [0xc0, 0xc2, 0xc3] ∨ b ∈ [0xca, 0xcb] ∨ b = 0xc1 ∨ 0xe0 ≤ b := by
  simp only [← List.mem_map]
  have all : ∀ n : Fin 256, let b := UInt8.ofFin n
      ¬ b < 0xc0 → b ∈ sizedMarkers.map Prod.fst ∨ b ∈ signedMarkers.map Prod.fst ∨
        b ∈ extMarkers.map Prod.fst ∨ b ∈ ([0xc0, 0xc2, 0xc3] : List UInt8) ∨
        b ∈ ([0xca, 0xcb] : List UInt8) ∨ b = 0xc1 ∨ 0xe0 ≤ b := by decide +kernel
  exact all b.toFin hb

/-- A marker that holds a size is the form of that size. -/
theorem marker_fixed (b : UInt8) :
    (b < 0x80 → b.toNat < 128) ∧
    (¬ b < 0x80 → b < 0x90 → (b &&& 0x0f).toNat < 16 ∧ 0x80 ||| UInt8.ofNat (b &&& 0x0f).toNat = b) ∧
    (¬ b < 0x90 → b < 0xa0 → (b &&& 0x0f).toNat < 16 ∧ 0x90 ||| UInt8.ofNat (b &&& 0x0f).toNat = b) ∧
    (¬ b < 0xa0 → b < 0xc0 → (b &&& 0x1f).toNat < 32 ∧ 0xa0 ||| UInt8.ofNat (b &&& 0x1f).toNat = b) ∧
    (0xe0 ≤ b → -32 ≤ twosComplement 1 b.toNat ∧ twosComplement 1 b.toNat < 0 ∧
      UInt8.ofInt (twosComplement 1 b.toNat) = b) := by
  have all : ∀ n : Fin 256, let b := UInt8.ofFin n
      (b < 0x80 → b.toNat < 128) ∧
      (¬ b < 0x80 → b < 0x90 → (b &&& 0x0f).toNat < 16 ∧ 0x80 ||| UInt8.ofNat (b &&& 0x0f).toNat = b) ∧
      (¬ b < 0x90 → b < 0xa0 → (b &&& 0x0f).toNat < 16 ∧ 0x90 ||| UInt8.ofNat (b &&& 0x0f).toNat = b) ∧
      (¬ b < 0xa0 → b < 0xc0 → (b &&& 0x1f).toNat < 32 ∧ 0xa0 ||| UInt8.ofNat (b &&& 0x1f).toNat = b) ∧
      (0xe0 ≤ b → -32 ≤ twosComplement 1 b.toNat ∧ twosComplement 1 b.toNat < 0 ∧
        UInt8.ofInt (twosComplement 1 b.toNat) = b) := by decide +kernel
  exact all b.toFin

/-- Whatever is read as a head is a form of it. -/
theorem spelled_of_readHead {bytes : Bytes} (hread : readHead bytes = some (h, rest)) :
    ∃ form, h.Spelled form ∧ bytes = form ++ rest := by
  cases bytes with
  | nil => cases hread
  | cons b tail =>
    obtain ⟨hnat, hmap, harray, hstr, hint⟩ := marker_fixed b
    by_cases h80 : b < 0x80
    · cases (readHead_fixnat h80 tail).symm.trans hread
      refine ⟨[b], ?_, rfl⟩
      have hform := Head.Spelled.fixnat (hnat h80)
      rwa [UInt8.ofNat_toNat] at hform
    by_cases h90 : b < 0x90
    · cases (readHead_fixmap h80 h90 tail).symm.trans hread
      obtain ⟨hn, hb⟩ := hmap h80 h90
      have hform := Head.Spelled.fixmap hn
      rw [hb] at hform
      exact ⟨[b], hform, rfl⟩
    by_cases ha0 : b < 0xa0
    · cases (readHead_fixarray h80 h90 ha0 tail).symm.trans hread
      obtain ⟨hn, hb⟩ := harray h90 ha0
      have hform := Head.Spelled.fixarray hn
      rw [hb] at hform
      exact ⟨[b], hform, rfl⟩
    by_cases hc0 : b < 0xc0
    · cases (readHead_fixstr h80 h90 ha0 hc0 tail).symm.trans hread
      obtain ⟨hn, hb⟩ := hstr ha0 hc0
      have hform := Head.Spelled.fixstr hn
      rw [hb] at hform
      exact ⟨[b], hform, rfl⟩
    rcases marker_cases b hc0 with ⟨⟨marker, width, head⟩, hmem, rfl⟩ |
      ⟨⟨marker, width, half⟩, hmem, rfl⟩ | ⟨⟨marker, n⟩, hmem, rfl⟩ | hmem | hmem | rfl | he0
    · rw [readHead_sized hmem] at hread
      obtain ⟨n, hn, rfl, rfl⟩ := sized_eq_some.mp hread
      exact ⟨_, .sized hmem hn, rfl⟩
    · obtain ⟨hhalf, heq⟩ := readHead_signed hmem tail
      rw [heq] at hread
      obtain ⟨x, hx, rfl, rfl⟩ := sized_eq_some.mp hread
      obtain ⟨hlow, hhigh, hback⟩ := emod_twosComplement hhalf hx
      have hform := Head.Spelled.signed hmem hlow hhigh
      rw [hback] at hform
      exact ⟨_, hform, rfl⟩
    · cases (readHead_ext hmem tail).symm.trans hread
      exact ⟨_, .fixext hmem, rfl⟩
    · simp only [List.mem_cons, List.not_mem_nil, or_false] at hmem
      rcases hmem with rfl | rfl | rfl <;> cases hread
      · exact ⟨_, .nil, rfl⟩
      · exact ⟨_, .bool false, rfl⟩
      · exact ⟨_, .bool true, rfl⟩
    · simp only [List.mem_cons, List.not_mem_nil, or_false] at hmem
      rcases hmem with rfl | rfl
      · obtain ⟨⟨bits, rest'⟩, hsplit, heq⟩ := Option.map_eq_some_iff.mp hread
        obtain ⟨hlength, rfl⟩ := split?_eq_some.mp hsplit
        cases heq
        have hform := Head.Spelled.float32 ⟨bits, hlength⟩
        rw [← Octets.fit_toList ⟨bits, hlength⟩] at hform
        exact ⟨_, hform, by rw [Octets.fit_toList ⟨bits, hlength⟩]; rfl⟩
      · obtain ⟨⟨bits, rest'⟩, hsplit, heq⟩ := Option.map_eq_some_iff.mp hread
        obtain ⟨hlength, rfl⟩ := split?_eq_some.mp hsplit
        cases heq
        have hform := Head.Spelled.float64 ⟨bits, hlength⟩
        rw [← Octets.fit_toList ⟨bits, hlength⟩] at hform
        exact ⟨_, hform, by rw [Octets.fit_toList ⟨bits, hlength⟩]; rfl⟩
    · cases hread
    · cases (readHead_fixint he0 tail).symm.trans hread
      obtain ⟨hlow, hhigh, hb⟩ := hint he0
      have hform := Head.Spelled.fixint hlow hhigh
      rw [hb] at hform
      exact ⟨[b], hform, rfl⟩

/-- **A head is read from its forms, and from nothing else.** -/
theorem readHead_eq_some {bytes : Bytes} :
    readHead bytes = some (h, rest) ↔ ∃ form, h.Spelled form ∧ bytes = form ++ rest := by
  constructor
  · exact spelled_of_readHead
  · rintro ⟨form, hform, rfl⟩
    exact readHead_spelled hform rest

end Heads

/-! ## Lists of values -/

section Lists

variable {α β : Type} {read : Bytes → Option (α × Bytes)} {rest : Bytes}

/-- What stands one after the other is read one after the other. -/
theorem readMany_forms {value : β → α} {form : β → Bytes} {items : List β}
    (h : ∀ b ∈ items, ∀ rest, read (form b ++ rest) = some (value b, rest)) (done : List α)
    (rest : Bytes) :
    readMany read items.length done (items.flatMap form ++ rest) =
      some (done.reverse ++ items.map value, rest) := by
  induction items generalizing done with
  | nil => simp [readMany]
  | cons b items ih =>
    have hb := h b (.head items) (items.flatMap form ++ rest)
    have hitems := ih (fun c hc => h c (.tail b hc)) (value b :: done)
    rw [List.flatMap_cons, List.append_assoc, List.length_cons, readMany, hb]
    dsimp only
    rw [hitems, List.reverse_cons, List.append_assoc, List.singleton_append, List.map_cons]

/-- What was read one after the other stands one after the other. -/
theorem forms_of_readMany {P : α → β → Prop} {form : β → Bytes}
    (h : ∀ bytes a rest, read bytes = some (a, rest) → ∃ b, P a b ∧ bytes = form b ++ rest)
    {n : Nat} {done as : List α} {bytes : Bytes} (hread : readMany read n done bytes = some (as, rest)) :
    ∃ items : List (α × β), items.length = n ∧ (∀ i ∈ items, P i.1 i.2) ∧
      as = done.reverse ++ items.map Prod.fst ∧
      bytes = (items.flatMap fun i => form i.2) ++ rest := by
  induction n generalizing done bytes with
  | zero =>
    cases hread
    exact ⟨[], rfl, nofun, by simp, rfl⟩
  | succ n ih =>
    rw [readMany] at hread
    split at hread
    · next a rest' ha =>
      obtain ⟨b, hb, rfl⟩ := h _ _ _ ha
      obtain ⟨items, hlength, hitems, rfl, rfl⟩ := ih hread
      refine ⟨(a, b) :: items, by rw [List.length_cons, hlength], ?_, by simp, by simp⟩
      rintro i (_ | ⟨_, hi⟩)
      · exact hb
      · exact hitems i hi
    · cases hread

end Lists

/-! ## The forms of values -/

/-- The forms of a value in which containers are nested at most so many levels deep. The parts of a
container stand one after the other, in forms of their own. -/
inductive Value.Spelled : Nat → Value → Bytes → Prop where
  | value {levels : Nat} {v : Value} {form : Bytes} (h : (Head.value v).Spelled form) :
      Spelled levels v form
  | str {levels : Nat} {head text : Bytes} (h : (Head.str text.length).Spelled head) :
      Spelled levels (.str text) (head ++ text)
  | bin {levels : Nat} {head data : Bytes} (h : (Head.bin data.length).Spelled head) :
      Spelled levels (.bin data) (head ++ data)
  | array {levels : Nat} {head : Bytes} {items : List (Value × Bytes)}
      (h : (Head.array items.length).Spelled head) (hitems : ∀ i ∈ items, Spelled levels i.1 i.2) :
      Spelled (levels + 1) (.array (items.map Prod.fst)) (head ++ items.flatMap Prod.snd)
  | map {levels : Nat} {head : Bytes} {entries : List ((Value × Value) × Bytes × Bytes)}
      (h : (Head.map entries.length).Spelled head)
      (hkeys : ∀ e ∈ entries, Spelled levels e.1.1 e.2.1)
      (hvalues : ∀ e ∈ entries, Spelled levels e.1.2 e.2.2) :
      Spelled (levels + 1) (.map (entries.map Prod.fst))
        (head ++ entries.flatMap fun e => e.2.1 ++ e.2.2)
  | ext {levels : Nat} {head : Bytes} (type : UInt8) {data : Bytes}
      (h : (Head.ext data.length).Spelled head) :
      Spelled (levels + 1) (.ext type data) (head ++ type :: data)

section Values

variable {nested : Option (Bytes → Option (Value × Bytes))} {bytes rest : Bytes}

theorem readValue_value {v : Value} (h : readHead bytes = some (.value v, rest)) :
    readValue nested bytes = some (v, rest) := by
  rw [readValue, h]
  rfl

theorem readValue_str {text : Bytes} (h : readHead bytes = some (.str text.length, text ++ rest)) :
    readValue nested bytes = some (.str text, rest) := by
  rw [readValue, h]
  show (split? text.length (text ++ rest)).map _ = _
  rw [split?_append]
  rfl

theorem readValue_bin {data : Bytes} (h : readHead bytes = some (.bin data.length, data ++ rest)) :
    readValue nested bytes = some (.bin data, rest) := by
  rw [readValue, h]
  show (split? data.length (data ++ rest)).map _ = _
  rw [split?_append]
  rfl

theorem readValue_ext {read : Bytes → Option (Value × Bytes)} {type : UInt8} {data : Bytes}
    (h : readHead bytes = some (.ext data.length, type :: (data ++ rest))) :
    readValue (some read) bytes = some (.ext type data, rest) := by
  have hsplit : split? (data.length + 1) (type :: (data ++ rest)) = some (type :: data, rest) :=
    split?_append (type :: data) rest
  rw [readValue, h, Option.bind_eq_bind, Option.bind_some]
  dsimp only
  rw [hsplit]

theorem readValue_array {read : Bytes → Option (Value × Bytes)} {n : Nat} {items : List Value}
    {rest' : Bytes} (h : readHead bytes = some (.array n, rest))
    (hitems : readMany read n [] rest = some (items, rest')) :
    readValue (some read) bytes = some (.array items, rest') := by
  rw [readValue, h]
  show (readMany read n [] rest).map _ = _
  rw [hitems]
  rfl

theorem readValue_map {read : Bytes → Option (Value × Bytes)} {n : Nat}
    {entries : List (Value × Value)} {rest' : Bytes} (h : readHead bytes = some (.map n, rest))
    (hentries : readMany (readBoth read) n [] rest = some (entries, rest')) :
    readValue (some read) bytes = some (.map entries, rest') := by
  rw [readValue, h]
  show (readMany (readBoth read) n [] rest).map _ = _
  rw [hentries]
  rfl

/-- At every level a value is read as what its head announces. -/
theorem readWithin_cases {levels : Nat} {bytes : Bytes} {result : Option (Value × Bytes)}
    (h : ∀ nested, readValue nested bytes = result) : readWithin levels bytes = result := by
  cases levels <;> exact h _

theorem readBoth_eq_some {read : Bytes → Option (Value × Bytes)} {e : Value × Value} :
    readBoth read bytes = some (e, rest) ↔
      ∃ rest', read bytes = some (e.1, rest') ∧ read rest' = some (e.2, rest) := by
  unfold readBoth
  simp only [Option.bind_eq_bind, Option.bind_eq_some_iff, Prod.exists]
  constructor
  · rintro ⟨a, rest', ha, b, _, hb, heq⟩
    cases heq
    exact ⟨rest', ha, hb⟩
  · rintro ⟨rest', ha, hb⟩
    exact ⟨e.1, rest', ha, e.2, rest, hb, rfl⟩

/-- Each form of a value is read, and what stands behind it is left over. -/
theorem readWithin_spelled {levels : Nat} {v : Value} {form : Bytes} (h : v.Spelled levels form)
    (rest : Bytes) : readWithin levels (form ++ rest) = some (v, rest) := by
  induction h generalizing rest with
  | value h => exact readWithin_cases fun _ => readValue_value (readHead_spelled h rest)
  | str h =>
    rw [List.append_assoc]
    exact readWithin_cases fun _ => readValue_str (readHead_spelled h _)
  | bin h =>
    rw [List.append_assoc]
    exact readWithin_cases fun _ => readValue_bin (readHead_spelled h _)
  | array h hitems ih =>
    rw [List.append_assoc]
    exact readValue_array (readHead_spelled h _) (readMany_forms ih [] rest)
  | @map levels head entries h hkeys hvalues ihkeys ihvalues =>
    have hboth : ∀ e ∈ entries, ∀ rest, readBoth (readWithin levels) (e.2.1 ++ e.2.2 ++ rest) =
        some (e.1, rest) := by
      intro e he rest
      rw [List.append_assoc]
      exact readBoth_eq_some.mpr ⟨_, ihkeys e he _, ihvalues e he rest⟩
    rw [List.append_assoc]
    exact readValue_map (readHead_spelled h _) (readMany_forms hboth [] rest)
  | ext type h =>
    rw [List.append_assoc, List.cons_append]
    exact readValue_ext (readHead_spelled h _)

/-- What is read as a value, if what lies in containers is read from forms, is a form of the value. Without
a reader for what lies in them there are no containers. -/
theorem spelled_of_readValue {levels : Nat} {v : Value}
    (hnested : ∀ read, nested = some read → ∃ below, levels = below + 1 ∧
      ∀ bytes v rest, read bytes = some (v, rest) →
        ∃ form, v.Spelled below form ∧ bytes = form ++ rest)
    (h : readValue nested bytes = some (v, rest)) :
    ∃ form, v.Spelled levels form ∧ bytes = form ++ rest := by
  rw [readValue, Option.bind_eq_bind, Option.bind_eq_some_iff] at h
  obtain ⟨⟨head, rest'⟩, hhead, h⟩ := h
  obtain ⟨form, hform, rfl⟩ := spelled_of_readHead hhead
  cases head with
  | value v =>
    cases h
    exact ⟨form, .value hform, rfl⟩
  | str n =>
    obtain ⟨⟨text, rest''⟩, hsplit, heq⟩ := Option.map_eq_some_iff.mp h
    obtain ⟨rfl, rfl⟩ := split?_eq_some.mp hsplit
    cases heq
    exact ⟨form ++ text, .str hform, by rw [List.append_assoc]⟩
  | bin n =>
    obtain ⟨⟨data, rest''⟩, hsplit, heq⟩ := Option.map_eq_some_iff.mp h
    obtain ⟨rfl, rfl⟩ := split?_eq_some.mp hsplit
    cases heq
    exact ⟨form ++ data, .bin hform, by rw [List.append_assoc]⟩
  | ext n =>
    dsimp only at h
    split at h
    · next read type data rest'' hsplit =>
      obtain ⟨hlength, rfl⟩ := split?_eq_some.mp hsplit
      cases h
      obtain ⟨below, rfl, -⟩ := hnested read rfl
      have hdata : data.length = n := by simpa using hlength
      subst hdata
      exact ⟨form ++ type :: data, .ext type hform, by rw [List.append_assoc]⟩
    · cases h
  | array n =>
    obtain ⟨read, hread, h⟩ := Option.bind_eq_some_iff.mp h
    obtain ⟨⟨values, rest''⟩, hmany, heq⟩ := Option.map_eq_some_iff.mp h
    cases heq
    obtain ⟨below, rfl, hsound⟩ := hnested read hread
    obtain ⟨items, rfl, hitems, rfl, rfl⟩ := forms_of_readMany hsound hmany
    exact ⟨form ++ items.flatMap Prod.snd, .array hform hitems, by rw [List.append_assoc]⟩
  | map n =>
    obtain ⟨read, hread, h⟩ := Option.bind_eq_some_iff.mp h
    obtain ⟨⟨values, rest''⟩, hmany, heq⟩ := Option.map_eq_some_iff.mp h
    cases heq
    obtain ⟨below, rfl, hsound⟩ := hnested read hread
    have hboth : ∀ bytes (e : Value × Value) rest, readBoth read bytes = some (e, rest) →
        ∃ forms : Bytes × Bytes, (e.1.Spelled below forms.1 ∧ e.2.Spelled below forms.2) ∧
          bytes = forms.1 ++ forms.2 ++ rest := by
      intro bytes e rest h
      obtain ⟨rest', hfirst, hsecond⟩ := readBoth_eq_some.mp h
      obtain ⟨key, hkey, rfl⟩ := hsound _ _ _ hfirst
      obtain ⟨value, hvalue, rfl⟩ := hsound _ _ _ hsecond
      exact ⟨(key, value), ⟨hkey, hvalue⟩, by rw [List.append_assoc]⟩
    obtain ⟨entries, rfl, hentries, rfl, rfl⟩ := forms_of_readMany hboth hmany
    exact ⟨form ++ entries.flatMap fun e => e.2.1 ++ e.2.2,
      .map hform (fun e he => (hentries e he).1) fun e he => (hentries e he).2,
      by rw [List.append_assoc]⟩

/-- **A value is read from its forms, and from nothing else**, and what stands behind a form is left
over. -/
theorem readWithin_eq_some {levels : Nat} {v : Value} :
    readWithin levels bytes = some (v, rest) ↔
      ∃ form, v.Spelled levels form ∧ bytes = form ++ rest := by
  constructor
  · intro h
    induction levels generalizing bytes v rest with
    | zero =>
      replace h : readValue none bytes = some (v, rest) := h
      exact spelled_of_readValue (fun read hread => by cases hread) h
    | succ levels ih =>
      replace h : readValue (some (readWithin levels)) bytes = some (v, rest) := h
      refine spelled_of_readValue (fun read hread => ⟨levels, rfl, ?_⟩) h
      cases hread
      exact fun _ _ _ => ih
  · rintro ⟨form, hform, rfl⟩
    exact readWithin_spelled hform rest

end Values

end Rendezvous.MessagePack
