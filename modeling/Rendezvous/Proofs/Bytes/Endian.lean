import Mathlib.Algebra.Group.Nat.Defs
import Rendezvous.Bytes.Endian

/-!
# Numbers that were written

Reading what was written gives the number back modulo the width, whatever the order of the bytes. Two byte
strings side by side are read as two parts of one number. With the high bytes first, byte strings stand in the
order of the numbers that they are (`BigEndian.decode_lt_decode`).
-/

namespace Rendezvous

namespace LittleEndian

theorem decode_lt (bytes : List UInt8) : decode bytes < 256 ^ bytes.length := by
  induction bytes with
  | nil => simp [decode]
  | cons b bytes ih =>
    have hb := b.toNat_lt
    simp only [decode, List.length_cons, Nat.pow_succ]
    omega

theorem decode_encode (width n : Nat) : decode (encode width n) = n % 256 ^ width := by
  induction width generalizing n with
  | zero => simp [encode, decode, Nat.mod_one]
  | succ width ih =>
    simp only [encode, decode, ih, UInt8.toNat_ofNat']
    rw [show 256 ^ (width + 1) = 256 * 256 ^ width from Nat.pow_add_one', Nat.mod_mul]

theorem decode_append (low high : List UInt8) :
    decode (low ++ high) = decode low + 256 ^ low.length * decode high := by
  induction low with
  | nil => simp [decode]
  | cons b low ih =>
    rw [List.cons_append, decode, decode, ih, List.length_cons, Nat.pow_succ', Nat.mul_add, Nat.mul_assoc]
    omega

end LittleEndian

namespace BigEndian

theorem decode_lt (bytes : List UInt8) : decode bytes < 256 ^ bytes.length := by
  simpa [decode] using LittleEndian.decode_lt bytes.reverse

theorem decode_encode (width n : Nat) : decode (encode width n) = n % 256 ^ width := by
  simp [encode, decode, LittleEndian.decode_encode]

theorem decode_append (high low : List UInt8) :
    decode (high ++ low) = decode high * 256 ^ low.length + decode low := by
  unfold decode
  rw [List.reverse_append, LittleEndian.decode_append, List.length_reverse, Nat.mul_comm, Nat.add_comm]

theorem decode_cons (b : UInt8) (bytes : List UInt8) :
    decode (b :: bytes) = b.toNat * 256 ^ bytes.length + decode bytes := by
  rw [← List.singleton_append, decode_append]
  rfl

/-- Byte strings of one length stand in the order of the numbers that they are. -/
theorem decode_lt_decode {x y : List UInt8} (h : x.length = y.length) : decode x < decode y ↔ x < y := by
  induction x generalizing y with
  | nil =>
    cases y with
    | nil => simp
    | cons b y => cases h
  | cons a x ih =>
    cases y with
    | nil => cases h
    | cons b y =>
      rw [List.length_cons, List.length_cons, Nat.succ_inj] at h
      have hx := decode_lt x
      have hy := decode_lt y
      rw [← h] at hy
      rw [decode_cons, decode_cons, ← h, List.cons_lt_cons_iff, ← ih h, UInt8.lt_iff_toNat_lt,
        ← UInt8.toNat_inj]
      -- The first bytes decide, since the rest of either string is less than one of them.
      rcases Nat.lt_trichotomy a.toNat b.toNat with hlt | heq | hgt
      · have hstep := Nat.mul_le_mul_right (256 ^ x.length) hlt
        rw [Nat.succ_mul] at hstep
        omega
      · rw [heq]
        omega
      · have hstep := Nat.mul_le_mul_right (256 ^ x.length) hgt
        rw [Nat.succ_mul] at hstep
        omega

end BigEndian

end Rendezvous
