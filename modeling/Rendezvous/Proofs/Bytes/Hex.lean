import Rendezvous.Bytes.Hex
import Rendezvous.Proofs.Results
import Rendezvous.Text.Utf8

/-!
# What is hexadecimal

A byte is a digit if it is one in lower case, and reading digits is comparing them with what is written: a
text is read as some bytes exactly if it is what is written for them, up to the case of its letters. All this
is about bytes; a text of ASCII characters is as good as its bytes.

* **`Hex.digitValue?_eq_some_iff`** — a digit is read as what it is written for.
* **`Hex.decode_eq_ok_iff`** — a text is read exactly if it is the text of the bytes, in any case.
* **`Hex.exists_decode`** — digits are read, if they are even in number.
* **`Text.utf8_ofAscii`**, **`Text.toLower_ofAscii`** — the bytes of a text in ASCII, and of its lower-case form.
-/

namespace Rendezvous

namespace Hex

/-- The lower-case form of a letter in ASCII; other bytes stay what they are. -/
def lower (b : UInt8) : UInt8 :=
  if 0x41 ≤ b ∧ b ≤ 0x5a then b + 0x20 else b

theorem toNat_lower (b : UInt8) :
    (lower b).toNat = if 0x41 ≤ b.toNat ∧ b.toNat ≤ 0x5a then b.toNat + 0x20 else b.toNat := by
  unfold lower
  simp only [UInt8.le_iff_toNat_le, UInt8.reduceToNat]
  split
  · simp only [UInt8.toNat_add, UInt8.reduceToNat]
    omega
  · rfl

theorem lower_lt_iff {b : UInt8} : lower b < 0x80 ↔ b < 0x80 := by
  have hb := b.toNat_lt
  simp only [UInt8.lt_iff_toNat_lt, toNat_lower, UInt8.reduceToNat]
  split <;> omega

theorem toNat_digit {v : UInt8} (h : v.toNat < 16) :
    (digit v).toNat = if v.toNat < 10 then 0x30 + v.toNat else 0x57 + v.toNat := by
  unfold digit
  simp only [UInt8.lt_iff_toNat_lt, UInt8.reduceToNat]
  split <;> simp only [UInt8.toNat_add, UInt8.reduceToNat] <;> omega

/-- A digit is one of three kinds, and is read as how far it is from the first of its kind. -/
theorem digitValue?_cases {b v : UInt8} : digitValue? b = some v ↔
    (0x30 ≤ b.toNat ∧ b.toNat ≤ 0x39 ∧ b.toNat = 0x30 + v.toNat) ∨
    (0x61 ≤ b.toNat ∧ b.toNat ≤ 0x66 ∧ b.toNat = 0x57 + v.toNat) ∨
    (0x41 ≤ b.toNat ∧ b.toNat ≤ 0x46 ∧ b.toNat = 0x37 + v.toNat) := by
  have hb := b.toNat_lt
  have hv := v.toNat_lt
  unfold digitValue?
  simp only [UInt8.le_iff_toNat_le, UInt8.reduceToNat]
  split
  · simp only [Option.some.injEq, ← UInt8.toNat_inj, UInt8.toNat_sub, UInt8.reduceToNat]
    omega
  split
  · simp only [Option.some.injEq, ← UInt8.toNat_inj, UInt8.toNat_sub, UInt8.reduceToNat]
    omega
  split
  · simp only [Option.some.injEq, ← UInt8.toNat_inj, UInt8.toNat_sub, UInt8.reduceToNat]
    omega
  · simp only [reduceCtorEq, false_iff]
    omega

theorem isDigit_iff {b : UInt8} : (digitValue? b).isSome = true ↔
    (0x30 ≤ b.toNat ∧ b.toNat ≤ 0x39) ∨ (0x61 ≤ b.toNat ∧ b.toNat ≤ 0x66) ∨
      (0x41 ≤ b.toNat ∧ b.toNat ≤ 0x46) := by
  unfold digitValue?
  simp only [UInt8.le_iff_toNat_le, UInt8.reduceToNat]
  grind

/-- A digit is read as the number for which its lower-case form is written. -/
theorem digitValue?_eq_some_iff {b v : UInt8} : digitValue? b = some v ↔ v < 16 ∧ lower b = digit v := by
  have hb := b.toNat_lt
  simp only [digitValue?_cases, UInt8.lt_iff_toNat_lt, UInt8.reduceToNat]
  by_cases hv : v.toNat < 16
  · rw [← UInt8.toNat_inj, toNat_lower, toNat_digit hv]
    split <;> split <;> omega
  · omega

theorem halves_of_join {high low : UInt8} (hh : high < 16) (hl : low < 16) :
    (high <<< 4 ||| low) >>> 4 = high ∧ (high <<< 4 ||| low) &&& 0x0f = low := by
  simp only [UInt8.lt_iff_toNat_lt, UInt8.reduceToNat] at hh hl
  have hjoin : (high <<< 4 ||| low).toNat = high.toNat * 2 ^ 4 + low.toNat := by
    simp only [UInt8.toNat_or, UInt8.toNat_shiftLeft, UInt8.reduceToNat, Nat.reduceMod, Nat.shiftLeft_eq]
    rw [Nat.mod_eq_of_lt (by omega), ← Nat.shiftLeft_eq, ← Nat.shiftLeft_add_eq_or_of_lt hl]
  constructor
  · simp only [← UInt8.toNat_inj, UInt8.toNat_shiftRight, hjoin, UInt8.reduceToNat, Nat.reduceMod,
      Nat.shiftRight_eq_div_pow]
    omega
  · simp only [← UInt8.toNat_inj, UInt8.toNat_and, hjoin, UInt8.reduceToNat]
    rw [Nat.and_two_pow_sub_one_eq_mod _ 4]
    omega

theorem halves_lt (b : UInt8) : b >>> 4 < 16 ∧ b &&& 0x0f < 16 :=
  ⟨(digitValue?_eq_some_iff.mp (digitValue?_digits b).1).1, (digitValue?_eq_some_iff.mp (digitValue?_digits b).2.1).1⟩

/-- Two digits are read as the byte for which their lower-case forms are written. -/
theorem exists_digitValue?_iff {high low b : UInt8} :
    (∃ h l, digitValue? high = some h ∧ digitValue? low = some l ∧ h <<< 4 ||| l = b) ↔
      [lower high, lower low] = digits b := by
  constructor
  · rintro ⟨h, l, hh, hl, rfl⟩
    obtain ⟨hh, hhigh⟩ := digitValue?_eq_some_iff.mp hh
    obtain ⟨hl, hlow⟩ := digitValue?_eq_some_iff.mp hl
    obtain ⟨hfirst, hsecond⟩ := halves_of_join hh hl
    rw [digits, hfirst, hsecond, hhigh, hlow]
  · intro h
    rw [digits, List.cons.injEq, List.cons.injEq] at h
    obtain ⟨hhigh, hlow, -⟩ := h
    obtain ⟨hh, hl⟩ := halves_lt b
    exact ⟨b >>> 4, b &&& 0x0f, digitValue?_eq_some_iff.mpr ⟨hh, hhigh⟩,
      digitValue?_eq_some_iff.mpr ⟨hl, hlow⟩, (digitValue?_digits b).2.2⟩

theorem digitAt_eq_ok_iff {b v : UInt8} {index : Nat} : digitAt b index = .ok v ↔ digitValue? b = some v := by
  unfold digitAt
  cases digitValue? b <;> simp

theorem decodeFrom_eq_ok_iff {index : Nat} {text bytes : Bytes} (heven : text.length % 2 = 0) :
    decodeFrom index text = .ok bytes ↔ text.map lower = encodeDigits bytes := by
  fun_induction decodeFrom index text generalizing bytes with
  | case1 index high low rest ih =>
    have hrest : rest.length % 2 = 0 := by
      simp only [List.length_cons] at heven
      omega
    simp only [bind_eq_ok, pure_eq_ok, digitAt_eq_ok_iff, ih hrest]
    cases bytes with
    | nil => simp [encodeDigits]
    | cons b bytes =>
      have hwritten : (high :: low :: rest).map lower = encodeDigits (b :: bytes) ↔
          [lower high, lower low] = digits b ∧ rest.map lower = encodeDigits bytes := by
        simp [encodeDigits, digits, and_assoc]
      rw [hwritten, ← exists_digitValue?_iff]
      constructor
      · rintro ⟨h, hh, l, hl, read, hread, hsame⟩
        cases hsame
        exact ⟨⟨h, l, hh, hl, rfl⟩, hread⟩
      · rintro ⟨⟨h, l, hh, hl, rfl⟩, hread⟩
        exact ⟨h, hh, l, hl, bytes, hread, rfl⟩
  | case2 text index hshort =>
    have hnil : text = [] := by
      rcases text with _ | ⟨b, _ | ⟨c, rest⟩⟩
      · rfl
      · cases heven
      · exact absurd rfl (hshort b c rest)
    subst hnil
    cases bytes <;> simp [encodeDigits, digits]

/-- A text is read exactly if it is what is written for the bytes, in any case. -/
theorem decode_eq_ok_iff {text bytes : Bytes} : decode text = .ok bytes ↔ text.map lower = encodeDigits bytes := by
  unfold decode
  split
  · next heven => exact decodeFrom_eq_ok_iff heven
  · next hodd =>
    refine iff_of_false nofun fun h => hodd ?_
    have hlength := congrArg List.length h
    rw [List.length_map, length_encodeDigits] at hlength
    omega

theorem length_of_decode {text bytes : Bytes} (h : decode text = .ok bytes) : text.length = 2 * bytes.length := by
  have hwritten := congrArg List.length (decode_eq_ok_iff.mp h)
  rwa [List.length_map, length_encodeDigits] at hwritten

theorem isDigit_of_decode {text bytes : Bytes} (h : decode text = .ok bytes) :
    ∀ b ∈ text, (digitValue? b).isSome = true := by
  intro b hb
  have hlower : lower b ∈ encodeDigits bytes :=
    decode_eq_ok_iff.mp h ▸ List.mem_map_of_mem hb
  -- What is written for a byte are the digits of its halves.
  obtain ⟨c, -, hc⟩ := List.mem_flatMap.mp hlower
  obtain ⟨hh, hl⟩ := halves_lt c
  simp only [digits, List.mem_cons, List.not_mem_nil, or_false] at hc
  rcases hc with hhalf | hhalf
  · exact Option.isSome_iff_exists.mpr ⟨_, digitValue?_eq_some_iff.mpr ⟨hh, hhalf⟩⟩
  · exact Option.isSome_iff_exists.mpr ⟨_, digitValue?_eq_some_iff.mpr ⟨hl, hhalf⟩⟩

theorem lt_of_isDigit {b : UInt8} (h : (digitValue? b).isSome = true) : b < 0x80 := by
  rw [isDigit_iff] at h
  simp only [UInt8.lt_iff_toNat_lt, UInt8.reduceToNat]
  omega

theorem lt_of_mem_encodeDigits {bytes : Bytes} : ∀ b ∈ encodeDigits bytes, b < 0x80 := fun b hb =>
  lt_of_isDigit (isDigit_of_decode (decode_encodeDigits bytes) b hb)

/-- Digits are read, if they are even in number. -/
theorem exists_decode {text : Bytes} (heven : text.length % 2 = 0)
    (hdigits : ∀ b ∈ text, (digitValue? b).isSome = true) : ∃ bytes, decode text = .ok bytes := by
  simp only [decode_eq_ok_iff]
  match text with
  | [] => exact ⟨[], rfl⟩
  | [_] => cases heven
  | high :: low :: rest =>
    have hrest : rest.length % 2 = 0 := by
      simp only [List.length_cons] at heven
      omega
    obtain ⟨bytes, hbytes⟩ := exists_decode hrest
      fun b hb => hdigits b (List.mem_cons_of_mem _ (List.mem_cons_of_mem _ hb))
    obtain ⟨h, hh⟩ := Option.isSome_iff_exists.mp (hdigits high List.mem_cons_self)
    obtain ⟨l, hl⟩ := Option.isSome_iff_exists.mp (hdigits low (List.mem_cons_of_mem _ List.mem_cons_self))
    have hpair := exists_digitValue?_iff.mp ⟨h, l, hh, hl, rfl⟩
    refine ⟨(h <<< 4 ||| l) :: bytes, ?_⟩
    rw [encodeDigits, List.flatMap_cons, ← hpair, List.map_cons, List.map_cons, decode_eq_ok_iff.mp hbytes]
    rfl

end Hex

/-! ## Texts in ASCII -/

namespace Text

/-- Whether a character is a hexadecimal digit, in lower or upper case. -/
def IsHexDigit (c : Char) : Prop :=
  ('0' ≤ c ∧ c ≤ '9') ∨ ('a' ≤ c ∧ c ≤ 'f') ∨ ('A' ≤ c ∧ c ≤ 'F')

theorem isHexDigit_iff {c : Char} : IsHexDigit c ↔
    (0x30 ≤ c.toNat ∧ c.toNat ≤ 0x39) ∨ (0x61 ≤ c.toNat ∧ c.toNat ≤ 0x66) ∨
      (0x41 ≤ c.toNat ∧ c.toNat ≤ 0x46) := by
  simp only [IsHexDigit, Char.le_def, UInt32.le_iff_toNat_le]
  rfl

/-- The text whose characters have the given bytes for codes. -/
def ofAscii (bytes : Bytes) : String :=
  String.ofList (bytes.map fun b => Char.ofNat b.toNat)

theorem utf8_ofList (cs : List Char) : utf8 (String.ofList cs) = cs.flatMap String.utf8EncodeChar := by
  rw [utf8, String.toByteArray_ofList, List.utf8Encode, List.toList_data_toByteArray]

theorem toNat_ofNat_ascii {n : Nat} (h : n < 128) : (Char.ofNat n).toNat = n := by
  have hvalid : n.isValidChar := .inl (by omega)
  rw [Char.ofNat, dif_pos hvalid]
  rfl

/-- A byte is a digit exactly if its character is one. -/
theorem isHexDigit_ofNat {b : UInt8} (h : b < 0x80) :
    IsHexDigit (Char.ofNat b.toNat) ↔ (Hex.digitValue? b).isSome = true := by
  rw [isHexDigit_iff, Hex.isDigit_iff, toNat_ofNat_ascii (UInt8.lt_iff_toNat_lt.mp h)]

theorem toNat_toLower (c : Char) :
    c.toLower.toNat = if 0x41 ≤ c.toNat ∧ c.toNat ≤ 0x5a then c.toNat + 0x20 else c.toNat := by
  have hupper : (c.val ≥ 'A'.val ∧ c.val ≤ 'Z'.val) ↔ 0x41 ≤ c.toNat ∧ c.toNat ≤ 0x5a := by
    rw [ge_iff_le, UInt32.le_iff_toNat_le, UInt32.le_iff_toNat_le]
    rfl
  unfold Char.toLower
  split
  · next h =>
    have hc := hupper.mp h
    rw [if_pos hc]
    show (c.val + ('a'.val - 'A'.val)).toNat = c.val.toNat + 0x20
    have hle : c.val.toNat ≤ 0x5a := hc.2
    have hgap : ('a'.val - 'A'.val).toNat = 0x20 := rfl
    rw [UInt32.toNat_add, hgap]
    omega
  · next h => rw [if_neg fun hc => h (hupper.mpr hc)]

theorem utf8EncodeChar_ascii {b : UInt8} (h : b < 0x80) : String.utf8EncodeChar (Char.ofNat b.toNat) = [b] := by
  have hlt : b.toNat < 128 := UInt8.lt_iff_toNat_lt.mp h
  have hchar : (Char.ofNat b.toNat).val.toNat = b.toNat := toNat_ofNat_ascii hlt
  have hfew : b.toNat ≤ 0x7f := by omega
  simp only [String.utf8EncodeChar, hchar, if_pos hfew, UInt8.ofNat_toNat]

theorem utf8_ofAscii {bytes : Bytes} (h : ∀ b ∈ bytes, b < 0x80) : utf8 (ofAscii bytes) = bytes := by
  rw [ofAscii, utf8_ofList]
  induction bytes with
  | nil => rfl
  | cons b bytes ih =>
    rw [List.map_cons, List.flatMap_cons, utf8EncodeChar_ascii (h b List.mem_cons_self),
      ih fun b hb => h b (List.mem_cons_of_mem _ hb)]
    rfl

theorem toList_toLower (s : String) : s.toLower.toList = s.toList.map Char.toLower :=
  String.toList_map

theorem toLower_ofAscii {bytes : Bytes} (h : ∀ b ∈ bytes, b < 0x80) :
    (ofAscii bytes).toLower = ofAscii (bytes.map Hex.lower) := by
  apply String.ext
  rw [toList_toLower, ofAscii, ofAscii, String.toList_ofList, String.toList_ofList, List.map_map,
    List.map_map]
  apply List.map_congr_left
  intro b hb
  have hlt := UInt8.lt_iff_toNat_lt.mp (h b hb)
  have hlower := UInt8.lt_iff_toNat_lt.mp (Hex.lower_lt_iff.mpr (h b hb))
  show (Char.ofNat b.toNat).toLower = Char.ofNat (Hex.lower b).toNat
  rw [← Char.toNat_inj, toNat_toLower, toNat_ofNat_ascii hlt, toNat_ofNat_ascii hlower, Hex.toNat_lower]

/-- Characters in ASCII are those of some bytes. -/
theorem exists_map_of_lt {cs : List Char} (h : ∀ c ∈ cs, c.toNat < 128) :
    ∃ bytes : Bytes, (∀ b ∈ bytes, b < 0x80) ∧ cs = bytes.map fun b => Char.ofNat b.toNat := by
  refine ⟨cs.map fun c => UInt8.ofNat c.toNat, ?_, ?_⟩
  · intro b hb
    obtain ⟨c, hc, rfl⟩ := List.mem_map.mp hb
    have hlt := h c hc
    rw [UInt8.lt_iff_toNat_lt, UInt8.toNat_ofNat', Nat.mod_eq_of_lt (by omega)]
    exact hlt
  · rw [List.map_map]
    have hsame : ∀ c ∈ cs, Char.ofNat (UInt8.ofNat c.toNat).toNat = c := fun c hc => by
      have hlt := h c hc
      rw [UInt8.toNat_ofNat', Nat.mod_eq_of_lt (by omega), Char.ofNat_toNat]
    exact (List.map_id cs).symm.trans (List.map_congr_left fun c hc => (hsame c hc).symm)

/-- A character is in ASCII if its lower-case form is. -/
theorem toNat_lt_of_toLower {c : Char} (h : c.toLower.toNat < 128) : c.toNat < 128 := by
  rw [toNat_toLower] at h
  split at h <;> omega

/-- A text whose lower-case form is in ASCII is in ASCII. -/
theorem exists_ofAscii_of_toLower {text : String} {bytes : Bytes} (hascii : ∀ b ∈ bytes, b < 0x80)
    (h : text.toLower = ofAscii bytes) :
    ∃ bytes', text = ofAscii bytes' ∧ bytes'.map Hex.lower = bytes := by
  have hchars : ∀ c ∈ text.toList, c.toNat < 128 := fun c hc => by
    have hlower : c.toLower ∈ bytes.map fun b => Char.ofNat b.toNat := by
      have hmem : c.toLower ∈ text.toLower.toList := by
        rw [toList_toLower]
        exact List.mem_map_of_mem hc
      rwa [h, ofAscii, String.toList_ofList] at hmem
    obtain ⟨b, hb, heq⟩ := List.mem_map.mp hlower
    have hlt := UInt8.lt_iff_toNat_lt.mp (hascii b hb)
    apply toNat_lt_of_toLower
    rw [← heq, toNat_ofNat_ascii hlt]
    exact hlt
  obtain ⟨bytes', hascii', hlist⟩ := exists_map_of_lt hchars
  have htext : text = ofAscii bytes' := String.ext (hlist.trans String.toList_ofList.symm)
  refine ⟨bytes', htext, ?_⟩
  have hlower : ∀ b ∈ bytes'.map Hex.lower, b < 0x80 := fun b hb => by
    obtain ⟨b', hb', rfl⟩ := List.mem_map.mp hb
    exact Hex.lower_lt_iff.mpr (hascii' b' hb')
  rw [htext, toLower_ofAscii hascii'] at h
  have hutf8 := congrArg utf8 h
  rwa [utf8_ofAscii hlower, utf8_ofAscii hascii] at hutf8

end Text

end Rendezvous
