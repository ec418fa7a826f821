import Rendezvous.Proofs.Frame.Exactness

/-!
# Counting in two halves

A sequence number that is to go on adds one to its value, whatever that does to its halves, until it stands
at the last value; there it stays and says so each time. So counting is followed through the value alone
(`count_eq`), and what a number of steps does to the halves follows from what it does to the value.

* **`SequenceNumber.count`** — going on a number of times, with the answers.
* **`SequenceNumber.count_eq`** — the answers and the value that is reached, for every number of steps.
* **`SequenceNumber.toOctets_lt_toOctets`** — numbers that are sent stand in the order of their bytes.
* **`SequenceNumber.counting_exact`** — how numbers count, and what is sent of them.
-/

namespace Rendezvous

namespace SequenceNumber

variable {m n : SequenceNumber}

/-! ## Going on -/

/-- A number that is to go on: whether it did, and what it is then. One that cannot go on stays what it is. -/
def advance (n : SequenceNumber) : Except CodecError Unit × SequenceNumber :=
  match n.next with
  | .ok m => (.ok (), m)
  | .error e => (.error e, n)

/-- A number that is to go on so many times: what it answers each time, and what it is at the end. -/
def count (n : SequenceNumber) : Nat → List (Except CodecError Unit) × SequenceNumber
  | 0 => ([], n)
  | k + 1 => ((n.count k).1 ++ [(n.count k).2.advance.1], (n.count k).2.advance.2)

theorem advance_of_lt (h : n.combined < 2 ^ 48 - 1) :
    n.advance.1 = .ok () ∧ n.advance.2.combined = n.combined + 1 := by
  obtain ⟨m, hnext, hm⟩ := next_of_combined_lt h
  rw [advance, hnext]
  exact ⟨rfl, hm⟩

theorem advance_of_last (h : n.combined = 2 ^ 48 - 1) : n.advance = (.error .overflowSentinel, n) := by
  have hsentinel : n.isSentinel = true := (isSentinel_iff n).mpr h
  rw [advance, next_sentinel hsentinel]

/-- A number goes on as long as there is a next one, and fails from then on. -/
theorem count_eq (n : SequenceNumber) (k : Nat) :
    (n.count k).1 = List.replicate (min k (2 ^ 48 - 1 - n.combined)) (.ok ()) ++
      List.replicate (k - (2 ^ 48 - 1 - n.combined)) (.error .overflowSentinel) ∧
    (n.count k).2.combined = min (n.combined + k) (2 ^ 48 - 1) := by
  have hn := n.combined_lt
  induction k with
  | zero =>
    rw [Nat.zero_min, Nat.zero_sub]
    refine ⟨rfl, ?_⟩
    show n.combined = _
    omega
  | succ k ih =>
    obtain ⟨hanswers, hvalue⟩ := ih
    rcases Nat.lt_or_ge (n.combined + k) (2 ^ 48 - 1) with hlt | hge
    · -- There is a next number, so none of the answers so far is a failure.
      have hvalue : (n.count k).2.combined = n.combined + k := by omega
      obtain ⟨hanswer, hnext⟩ := advance_of_lt (n := (n.count k).2) (by omega)
      rw [Nat.min_eq_left (by omega), Nat.sub_eq_zero_of_le (by omega), List.replicate_zero,
        List.append_nil] at hanswers ⊢
      refine ⟨?_, ?_⟩
      · rw [count, hanswers, hanswer, List.replicate_succ']
      · rw [count, hnext]
        omega
    · have hlast : (n.count k).2.combined = 2 ^ 48 - 1 := by omega
      have hstep : k + 1 - (2 ^ 48 - 1 - n.combined) = k - (2 ^ 48 - 1 - n.combined) + 1 := by omega
      rw [Nat.min_eq_right (by omega)] at hanswers ⊢
      rw [count, advance_of_last hlast, hanswers, hstep, List.replicate_succ', List.append_assoc]
      refine ⟨rfl, ?_⟩
      show (n.count k).2.combined = _
      omega

theorem combined_count (n : SequenceNumber) (k : Nat) :
    (n.count k).2.combined = min (n.combined + k) (2 ^ 48 - 1) :=
  (count_eq n k).2

/-- It is known from the value alone whether a number went on every time. -/
theorem forall_count_eq_ok_iff (n : SequenceNumber) (k : Nat) :
    (∀ answer ∈ (n.count k).1, answer = .ok ()) ↔ n.combined + k ≤ 2 ^ 48 - 1 := by
  have hn := n.combined_lt
  rw [(count_eq n k).1]
  constructor
  · intro h
    by_contra hlong
    have hfailure : Except.error .overflowSentinel ∈ List.replicate (k - (2 ^ 48 - 1 - n.combined))
        (Except.error .overflowSentinel : Except CodecError Unit) :=
      List.mem_replicate.mpr ⟨by omega, rfl⟩
    cases h _ (List.mem_append_right _ hfailure)
  · intro h answer hanswer
    have hnone : k - (2 ^ 48 - 1 - n.combined) = 0 := by omega
    rw [hnone, List.replicate_zero, List.append_nil] at hanswer
    exact List.eq_of_mem_replicate hanswer

/-- From the last number on every step fails, and the number stays. -/
theorem count_of_last {k : Nat} (h : 2 ^ 48 - 1 ≤ n.combined + k) (j : Nat) :
    n.count (k + j) = ((n.count k).1 ++ List.replicate j (.error .overflowSentinel), (n.count k).2) := by
  induction j with
  | zero => rw [List.replicate_zero, List.append_nil, Nat.add_zero]
  | succ j ih =>
    have hlast : (n.count k).2.combined = 2 ^ 48 - 1 := by
      rw [combined_count]
      omega
    rw [← Nat.add_assoc, count, ih, advance_of_last hlast, List.append_assoc, List.replicate_succ']

/-- The first half counts how often the second one was full, so it never falls back. -/
theorem overflow_count_le {j k : Nat} (h : j ≤ k) : (n.count j).2.overflow ≤ (n.count k).2.overflow := by
  have hj := combined_count n j
  have hk := combined_count n k
  have hlow := (n.count j).2.sequence.toNat_lt
  have hhigh := (n.count k).2.sequence.toNat_lt
  rw [UInt16.le_iff_toNat_le]
  unfold combined at hj hk
  omega

/-- A number that has not wrapped has a long way to go. -/
theorem isSentinel_count_of_overflow {k : Nat} (h : n.overflow = 0) (hk : k < 2 ^ 48 - 2 ^ 32) :
    (n.count k).2.isSentinel = false := by
  have hn := combined_of_overflow h
  rw [← Bool.not_eq_true, isSentinel_iff, combined_count]
  omega

/-! ## What is sent -/

/-- The bytes that are sent, the highest first. -/
theorem toOctets_of_lt (h : n.combined < 2 ^ 48 - 1) :
    ∃ octets, n.toOctets = .ok octets ∧
      octets.toList = [n.combined / 2 ^ 40, n.combined / 2 ^ 32, n.combined / 2 ^ 24,
        n.combined / 2 ^ 16, n.combined / 2 ^ 8, n.combined].map UInt8.ofNat ∧
      ofOctets octets = n := by
  have hsentinel : ¬ n.isSentinel = true := by
    rw [isSentinel_iff]
    omega
  refine ⟨n.layout, if_neg hsentinel, ?_, ofOctets_layout n⟩
  rw [toList_layout]
  simp [BigEndian.encode, LittleEndian.encode, Nat.div_div_eq_div_mul]

theorem toOctets_of_last (h : 2 ^ 48 - 1 ≤ n.combined) : n.toOctets = .error .overflowSentinel := by
  have hn := n.combined_lt
  have hsentinel : n.isSentinel = true := by
    rw [isSentinel_iff]
    omega
  exact if_pos hsentinel

/-- What is sent is read as the value. -/
theorem decode_of_toOctets {octets : Octets 6} (h : n.toOctets = .ok octets) :
    BigEndian.decode octets.toList = n.combined := by
  unfold toOctets at h
  split at h
  · cases h
  · cases h
    exact decode_layout n

/-- Numbers that are sent stand in the order of their bytes. -/
theorem toOctets_lt_toOctets {x y : Octets 6} (hm : m.toOctets = .ok x) (hn : n.toOctets = .ok y) :
    x.toList < y.toList ↔ m.combined < n.combined := by
  rw [← BigEndian.decode_lt_decode (x.length_toList.trans y.length_toList.symm), decode_of_toOctets hm,
    decode_of_toOctets hn]

/-- **Sequence numbers count in 48 bits, and are sent as they count.** A number goes on as often as there are
numbers up to the last one, and its value grows by one each time; at the last one every further step fails and
changes nothing. The first half never wraps, and a number in which it is zero does not get to the last one in
fewer than `2 ^ 48 - 2 ^ 32` steps. All numbers but the last one are sent, as the six bytes of their value with
the highest first; they are read back, and numbers stand in the order of their bytes. -/
theorem counting_exact (n : SequenceNumber) :
    (∀ k, ((∀ answer ∈ (n.count k).1, answer = .ok ()) ↔ n.combined + k ≤ 2 ^ 48 - 1) ∧
      (n.combined + k ≤ 2 ^ 48 - 1 → (n.count k).2.combined = n.combined + k)) ∧
    (∀ k, 2 ^ 48 - 1 ≤ n.combined + k → (n.count k).2.combined = 2 ^ 48 - 1 ∧
      ∀ j, n.count (k + j) =
        ((n.count k).1 ++ List.replicate j (.error .overflowSentinel), (n.count k).2)) ∧
    (∀ j k, j ≤ k → (n.count j).2.overflow ≤ (n.count k).2.overflow) ∧
    (n.overflow = 0 → ∀ k, k < 2 ^ 48 - 2 ^ 32 → (n.count k).2.isSentinel = false) ∧
    (n.combined < 2 ^ 48 - 1 → ∃ octets, n.toOctets = .ok octets ∧
      octets.toList = [n.combined / 2 ^ 40, n.combined / 2 ^ 32, n.combined / 2 ^ 24,
        n.combined / 2 ^ 16, n.combined / 2 ^ 8, n.combined].map UInt8.ofNat ∧
      ofOctets octets = n) ∧
    (2 ^ 48 - 1 ≤ n.combined → n.toOctets = .error .overflowSentinel) ∧
    ∀ (m : SequenceNumber) (x y : Octets 6), m.toOctets = .ok x → n.toOctets = .ok y →
      (x.toList < y.toList ↔ m.combined < n.combined) := by
  refine ⟨fun k => ⟨forall_count_eq_ok_iff n k, fun h => ?_⟩, fun k h => ⟨?_, count_of_last h⟩,
    fun j k => overflow_count_le, fun h k => isSentinel_count_of_overflow h, toOctets_of_lt, toOctets_of_last,
    fun m x y => toOctets_lt_toOctets⟩
  · rw [combined_count, Nat.min_eq_left h]
  · rw [combined_count, Nat.min_eq_right h]

/-- Two steps in front of the last number, and at the longest way that a number has which did not wrap. -/
theorem counting_exact_last :
    let n : SequenceNumber := ⟨0xffff, 0xfffffffd⟩
    let fresh : SequenceNumber := ⟨0, 0xffffffff⟩
    (n.combined + 2 ≤ 2 ^ 48 - 1 ∧ (n.count 2).2.combined = n.combined + 2) ∧
    (2 ^ 48 - 1 ≤ n.combined + 2 ∧
      n.count (2 + 1) = ((n.count 2).1 ++ List.replicate 1 (.error .overflowSentinel), (n.count 2).2)) ∧
    (0 ≤ 3 ∧ (fresh.count 0).2.overflow ≤ (fresh.count 3).2.overflow) ∧
    (fresh.overflow = 0 ∧ 2 ^ 48 - 2 ^ 32 - 1 < 2 ^ 48 - 2 ^ 32 ∧
      (fresh.count (2 ^ 48 - 2 ^ 32 - 1)).2.isSentinel = false) ∧
    ∃ x y, n.combined < 2 ^ 48 - 1 ∧ n.toOctets = .ok y ∧ fresh.toOctets = .ok x ∧
      (x.toList < y.toList ↔ fresh.combined < n.combined) := by
  intro n fresh
  have hn := counting_exact n
  have hfresh := counting_exact fresh
  have hvalue : n.combined = 2 ^ 48 - 3 := by decide
  have hfreshValue : fresh.combined = 2 ^ 32 - 1 := by decide
  have hlt : n.combined < 2 ^ 48 - 1 := by omega
  obtain ⟨y, hy, -⟩ := hn.2.2.2.2.1 hlt
  obtain ⟨x, hx, -⟩ := hfresh.2.2.2.2.1 (by omega)
  exact ⟨⟨by omega, (hn.1 2).2 (by omega)⟩, ⟨by omega, (hn.2.1 2 (by omega)).2 1⟩,
    ⟨by omega, hfresh.2.2.1 0 3 (by omega)⟩, ⟨rfl, by omega, hfresh.2.2.2.1 rfl _ (by omega)⟩,
    x, y, hlt, hy, hx, hn.2.2.2.2.2.2 fresh x y hx hy⟩

end SequenceNumber

end Rendezvous
