import Rendezvous.Bytes.Octets
import Rendezvous.Bytes.Endian

/-!
The Salsa20 core, and on top of it the hash HSalsa20 and the stream XSalsa20, whose nonce of 24
bytes is split: the first 16 bytes derive a key of its own, the last 8 stay a nonce.
-/

namespace Rendezvous.Salsa20

/-- The state of the core: sixteen words. -/
abbrev State := Vector UInt32 16

/-- A word with its bits rotated to the left. -/
def rotate (w : UInt32) (amount : UInt32) : UInt32 :=
  w <<< amount ||| w >>> (32 - amount)

/-- Mixes four words of the state in place. -/
def quarterRound (s : State) : Fin 16 × Fin 16 × Fin 16 × Fin 16 → State
  | (a, b, c, d) =>
    let s := s.set b (s[b] ^^^ rotate (s[a] + s[d]) 7)
    let s := s.set c (s[c] ^^^ rotate (s[b] + s[a]) 9)
    let s := s.set d (s[d] ^^^ rotate (s[c] + s[b]) 13)
    s.set a (s[a] ^^^ rotate (s[d] + s[c]) 18)

/-- The quarters that a double round mixes: first the columns, then the rows, each from its
diagonal element on. -/
def quarters : List (Fin 16 × Fin 16 × Fin 16 × Fin 16) :=
  [(0, 4, 8, 12), (5, 9, 13, 1), (10, 14, 2, 6), (15, 3, 7, 11),
    (0, 1, 2, 3), (5, 6, 7, 4), (10, 11, 8, 9), (15, 12, 13, 14)]

/-- The columns and the rows, mixed once. -/
def doubleRound (s : State) : State :=
  quarters.foldl quarterRound s

/-- All twenty rounds. -/
def rounds (s : State) : State :=
  (List.range 10).foldl (fun s _ => doubleRound s) s

/-- The words in a byte string, lowest byte first. -/
def words {k : Nat} (n : Nat) (bytes : Octets k) : Vector UInt32 n :=
  Vector.ofFn fun i => UInt32.ofNat (LittleEndian.decode ((bytes.toList.drop (4 * i)).take 4))

def bytes (ws : List UInt32) : Bytes :=
  ws.flatMap fun w => LittleEndian.encode 4 w.toNat

theorem length_bytes (ws : List UInt32) : (bytes ws).length = 4 * ws.length := by
  induction ws with
  | nil => rfl
  | cons w ws ih => simp_all [bytes]; omega

/-- The state for a key and sixteen bytes of input, around the four constant words. -/
def initial (key : Octets 32) (input : Octets 16) : State :=
  let k := words 8 key
  let n := words 4 input
  #v[0x61707865, k[0], k[1], k[2], k[3], 0x3320646e, n[0], n[1],
    n[2], n[3], 0x79622d32, k[4], k[5], k[6], k[7], 0x6b206574]

/-- The key that HSalsa20 derives from a key and sixteen bytes of input. -/
def derive (key : Octets 32) (input : Octets 16) : Octets 32 :=
  let s := rounds (initial key input)
  ⟨bytes [s[0], s[5], s[10], s[15], s[6], s[7], s[8], s[9]], by rw [length_bytes]; rfl⟩

/-- One block of the key stream, at the given position. -/
def block (key : Octets 32) (nonce : Octets 8) (position : Nat) : Octets 64 :=
  let counter : Octets 8 := ⟨LittleEndian.encode 8 position, by simp⟩
  let s := initial key (nonce.append counter)
  let r := Vector.zipWith (· + ·) s (rounds s)
  ⟨bytes r.toList, by rw [length_bytes, Vector.length_toList]⟩

/-- The first `size` bytes of the XSalsa20 key stream. -/
def stream (key : Octets 32) (nonce : Octets 24) (size : Nat) : Bytes :=
  let subkey := derive key (nonce.take 16)
  let blocks := (List.range ((size + 63) / 64)).flatMap fun i =>
    (block subkey (nonce.drop 16) i).toList
  blocks.take size

theorem length_stream (key : Octets 32) (nonce : Octets 24) (size : Nat) :
    (stream key nonce size).length = size := by
  have h : ∀ (f : Nat → Octets 64) (l : List Nat),
      (l.flatMap fun i => (f i).toList).length = 64 * l.length := by
    intro f l
    induction l with
    | nil => rfl
    | cons i l ih => simp [ih, (f i).length_toList]; omega
  simp only [stream, List.length_take, h, List.length_range]
  omega

/-- The bytes of two strings, combined by exclusive or, up to the end of the shorter one. -/
def xor (a b : Bytes) : Bytes :=
  List.zipWith (· ^^^ ·) a b

/-- Combining twice with the same stream gives the string back. -/
theorem xor_xor_cancel {a b : Bytes} (h : a.length ≤ b.length) : xor (xor a b) b = a := by
  induction a generalizing b with
  | nil => rfl
  | cons x a ih =>
    cases b with
    | nil => simp at h
    | cons y b =>
      have := ih (b := b) (by simpa using h)
      have hcancel : x ^^^ y ^^^ y = x := by rw [UInt8.xor_assoc, UInt8.xor_self, UInt8.xor_zero]
      show (x ^^^ y ^^^ y) :: xor (xor a b) b = x :: a
      rw [hcancel, this]

end Rendezvous.Salsa20
