import Rendezvous.Bytes.Endian
import Rendezvous.CodecError

/-!
Combined sequence numbers: 48 bits in two halves, which count the frames of one direction of a
connection. The greatest value is a sentinel: it is reached, but it is never written and never left.
Main statements: the combined value determines the number (`combined_inj`), and `next` adds one to
it or, at the sentinel, fails (`combined_of_next`, `next_sentinel`).
-/

namespace Rendezvous

/-- A combined sequence number: how often the counter wrapped, and the counter. -/
structure SequenceNumber where
  overflow : UInt16
  sequence : UInt32
  deriving DecidableEq, Repr

namespace SequenceNumber

def combined (n : SequenceNumber) : Nat :=
  n.overflow.toNat * 0x100000000 + n.sequence.toNat

/-- Whether the number is the last value, which cannot be sent. -/
def isSentinel (n : SequenceNumber) : Bool :=
  n.overflow == 0xffff && n.sequence == 0xffffffff

def next (n : SequenceNumber) : Except CodecError SequenceNumber :=
  if n.isSentinel then .error .overflowSentinel
  else if n.sequence == 0xffffffff then .ok ⟨n.overflow + 1, 0⟩
  else .ok ⟨n.overflow, n.sequence + 1⟩

/-- The two halves as they lie in a frame header, whatever the number is. -/
def layout (n : SequenceNumber) : Octets 6 :=
  ⟨BigEndian.encode 2 n.overflow.toNat ++ BigEndian.encode 4 n.sequence.toNat, by simp⟩

/-- The six bytes to send, unless the number is the sentinel. -/
def toOctets (n : SequenceNumber) : Except CodecError (Octets 6) :=
  if n.isSentinel then .error .overflowSentinel else .ok n.layout

/-- The number that lies in six bytes. -/
def ofOctets (bytes : Octets 6) : SequenceNumber :=
  ⟨UInt16.ofNat (BigEndian.decode (bytes.toList.take 2)),
    UInt32.ofNat (BigEndian.decode (bytes.toList.drop 2))⟩

def text (n : SequenceNumber) : String :=
  toString n.combined

/-- The two halves, as they are shown in descriptions. -/
def describe (n : SequenceNumber) : String :=
  "Csn(" ++ toString n.overflow.toNat ++ ":" ++ toString n.sequence.toNat ++ ")"

/-! ### The combined value -/

theorem combined_lt (n : SequenceNumber) : n.combined < 0x1000000000000 := by
  have ho := n.overflow.toNat_lt
  have hs := n.sequence.toNat_lt
  unfold combined
  omega

theorem combined_inj {m n : SequenceNumber} : m.combined = n.combined ↔ m = n := by
  constructor
  · intro h
    have hm := m.sequence.toNat_lt
    have hn := n.sequence.toNat_lt
    have ho : m.overflow = n.overflow := UInt16.toNat_inj.mp (by unfold combined at h; omega)
    have hs : m.sequence = n.sequence := UInt32.toNat_inj.mp (by unfold combined at h; omega)
    cases m; cases n; simp_all
  · rintro rfl
    rfl

theorem isSentinel_iff (n : SequenceNumber) :
    n.isSentinel = true ↔ n.combined = 0xffffffffffff := by
  have ho := n.overflow.toNat_lt
  have hs := n.sequence.toNat_lt
  simp only [isSentinel, Bool.and_eq_true, beq_iff_eq, ← UInt16.toNat_inj, ← UInt32.toNat_inj,
    combined, UInt16.reduceToNat, UInt32.reduceToNat]
  omega

theorem next_sentinel {n : SequenceNumber} (h : n.isSentinel = true) :
    n.next = .error .overflowSentinel := by
  simp [next, h]

theorem combined_of_next {n m : SequenceNumber} (h : n.next = .ok m) :
    m.combined = n.combined + 1 := by
  have ho := n.overflow.toNat_lt
  have hs := n.sequence.toNat_lt
  unfold next at h
  split at h
  · contradiction
  · rename_i hsent
    rw [isSentinel_iff] at hsent
    split at h
    · rename_i hseq
      have hseq : n.sequence.toNat = 0xffffffff := by
        rw [beq_iff_eq] at hseq
        simp [hseq]
      cases h
      simp only [combined, UInt16.toNat_add, UInt16.reduceToNat, UInt32.reduceToNat] at hsent ⊢
      omega
    · rename_i hseq
      have hseq : n.sequence.toNat ≠ 0xffffffff := by
        intro e
        apply hseq
        rw [beq_iff_eq, ← UInt32.toNat_inj]
        simpa using e
      cases h
      simp only [combined, UInt32.toNat_add, UInt32.reduceToNat] at hsent ⊢
      omega

theorem next_eq_ok {n : SequenceNumber} (h : n.isSentinel = false) : ∃ m, n.next = .ok m := by
  unfold next
  rw [if_neg (by simp [h])]
  split <;> exact ⟨_, rfl⟩

end SequenceNumber

end Rendezvous
