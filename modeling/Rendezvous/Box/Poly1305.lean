import Rendezvous.Bytes.Octets
import Rendezvous.Bytes.Endian

/-!
The one-time authenticator Poly1305 over natural numbers.
-/

namespace Rendezvous.Poly1305

/-- The prime modulo which the polynomial is evaluated. -/
def prime : Nat := Nat.pow 2 130 - 5

/-- The bits of the multiplier that a key may set. -/
def mask : Nat := 0x0ffffffc0ffffffc0ffffffc0fffffff

/-- The numbers of a message, one for each sixteen bytes and one for what is left, each with a one
above its bytes. `n` holds the `k` bytes read since the last number. -/
def numbers (k n : Nat) : Bytes → List Nat
  | [] => if k = 0 then [] else [n + Nat.pow 256 k]
  | b :: bytes =>
    let n := n + b.toNat * Nat.pow 256 k
    if k = 15 then (n + Nat.pow 256 16) :: numbers 0 0 bytes else numbers (k + 1) n bytes

/-- The tag of a message under a key that is used once. -/
def tag (key : Octets 32) (message : Bytes) : Octets 16 :=
  let r := LittleEndian.decode (key.toList.take 16) &&& mask
  let s := LittleEndian.decode (key.toList.drop 16)
  let sum := (numbers 0 0 message).foldl (fun acc n => (acc + n) * r % prime) 0
  ⟨LittleEndian.encode 16 (sum + s), by simp⟩

end Rendezvous.Poly1305
