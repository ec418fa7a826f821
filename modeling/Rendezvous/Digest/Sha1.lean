import Rendezvous.Bytes.Endian

/-!
The digest SHA-1. It is used to show that a server understood a request, not to keep anything secret.
-/

namespace Rendezvous.Sha1

/-- The five words that are carried from block to block. -/
structure State where
  a : UInt32
  b : UInt32
  c : UInt32
  d : UInt32
  e : UInt32
  deriving DecidableEq

def initial : State := ⟨0x67452301, 0xefcdab89, 0x98badcfe, 0x10325476, 0xc3d2e1f0⟩

def rotate (n : UInt32) (x : UInt32) : UInt32 :=
  (x <<< n) ||| (x >>> (32 - n))

/-- The message with a one bit, zero bits and its length in bits, so that whole blocks result. -/
def pad (message : List UInt8) : List UInt8 :=
  let zeros := (119 - message.length % 64) % 64
  message ++ 0x80 :: List.replicate zeros 0 ++ BigEndian.encode 8 (8 * message.length)

def words : List UInt8 → List UInt32
  | a :: b :: c :: d :: rest => UInt32.ofNat (BigEndian.decode [a, b, c, d]) :: words rest
  | _ => []

/-- Adds words to those of a block, the last of which comes first. -/
def extend : Nat → List UInt32 → List UInt32
  | 0, ws => ws
  | n + 1, ws =>
    extend n (rotate 1 (ws.getD 2 0 ^^^ ws.getD 7 0 ^^^ ws.getD 13 0 ^^^ ws.getD 15 0) :: ws)

/-- What a round adds, and how it mixes three words. -/
def mixing (round : Nat) (b c d : UInt32) : UInt32 × UInt32 :=
  if round < 20 then (0x5a827999, (b &&& c) ||| (~~~b &&& d))
  else if round < 40 then (0x6ed9eba1, b ^^^ c ^^^ d)
  else if round < 60 then (0x8f1bbcdc, (b &&& c) ||| (b &&& d) ||| (c &&& d))
  else (0xca62c1d6, b ^^^ c ^^^ d)

def turn (s : State) (word : UInt32 × Nat) : State :=
  let (constant, mixed) := mixing word.2 s.b s.c s.d
  ⟨rotate 5 s.a + mixed + s.e + constant + word.1, s.a, rotate 30 s.b, s.c, s.d⟩

/-- Takes a block in, given as its words. -/
def absorb (s : State) (block : List UInt32) : State :=
  let t := ((extend 64 block.reverse).reverse.zipIdx).foldl turn s
  ⟨s.a + t.a, s.b + t.b, s.c + t.c, s.d + t.d, s.e + t.e⟩

/-- Takes so many blocks in, given as the words of all. -/
def absorbAll : Nat → State → List UInt32 → State
  | 0, s, _ => s
  | n + 1, s, ws => absorbAll n (absorb s (ws.take 16)) (ws.drop 16)

/-- The digest of a message, which has 20 bytes. -/
def digest (message : List UInt8) : List UInt8 :=
  let ws := words (pad message)
  let s := absorbAll (ws.length / 16) initial ws
  [s.a, s.b, s.c, s.d, s.e].flatMap fun w => BigEndian.encode 4 w.toNat

@[simp] theorem length_digest (message : List UInt8) : (digest message).length = 20 := by
  simp [digest]

end Rendezvous.Sha1
