/-!
Numbers as byte strings of a fixed width, least significant byte first (`LittleEndian`) or last
(`BigEndian`). Main statement: writing what was read gives the bytes back (`encode_decode`).
-/

namespace Rendezvous

namespace LittleEndian

/-- The `width` low bytes of a number, the lowest first. -/
def encode : Nat → Nat → List UInt8
  | 0, _ => []
  | width + 1, n => UInt8.ofNat n :: encode width (n / 256)

/-- The number whose bytes are given, the lowest first. -/
def decode : List UInt8 → Nat
  | [] => 0
  | b :: bytes => b.toNat + 256 * decode bytes

@[simp] theorem length_encode (width n : Nat) : (encode width n).length = width := by
  induction width generalizing n with
  | zero => rfl
  | succ width ih => simp [encode, ih]

theorem encode_decode (bytes : List UInt8) : encode bytes.length (decode bytes) = bytes := by
  induction bytes with
  | nil => rfl
  | cons b bytes ih =>
    have hb := b.toNat_lt
    have hdiv : (b.toNat + 256 * decode bytes) / 256 = decode bytes := by omega
    have hmod : UInt8.ofNat (b.toNat + 256 * decode bytes) = b := by
      apply UInt8.toNat_inj.mp
      rw [UInt8.toNat_ofNat']
      omega
    simp [encode, decode, hdiv, hmod, ih]

end LittleEndian

namespace BigEndian

/-- The `width` low bytes of a number, the highest first. -/
def encode (width n : Nat) : List UInt8 :=
  (LittleEndian.encode width n).reverse

/-- The number whose bytes are given, the highest first. -/
def decode (bytes : List UInt8) : Nat :=
  LittleEndian.decode bytes.reverse

@[simp] theorem length_encode (width n : Nat) : (encode width n).length = width := by
  simp [encode]

theorem encode_decode (bytes : List UInt8) : encode bytes.length (decode bytes) = bytes := by
  have h := LittleEndian.encode_decode bytes.reverse
  rw [List.length_reverse] at h
  simp [encode, decode, h]

end BigEndian

end Rendezvous
