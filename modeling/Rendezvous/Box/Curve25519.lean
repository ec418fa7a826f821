import Rendezvous.Bytes.Octets
import Rendezvous.Bytes.Endian

/-!
The Diffie-Hellman function of Curve25519: the Montgomery ladder on the `u` coordinate, over natural
numbers modulo the prime `2 ^ 255 - 19`.
-/

namespace Rendezvous.Curve25519

def prime : Nat := Nat.pow 2 255 - 19

/-- The order of the group that the base point generates. -/
def order : Nat := Nat.pow 2 252 + 27742317777372353535851937790883648493

/-- The `u` coordinate of the base point. -/
def basePoint : Nat := 9

/-- The bits of a number from the highest of `width` down to the lowest. -/
def bits (width n : Nat) : List Bool :=
  (List.range width).reverse.map n.testBit

def sub (a b : Nat) : Nat := (a + (prime - b % prime)) % prime

def mul (a b : Nat) : Nat := a * b % prime

/-- A power in the field, by squaring and multiplying along the bits of the exponent. -/
def pow (a e : Nat) : Nat :=
  (bits 255 e).foldl (fun r bit => if bit then mul (mul r r) a else mul r r) 1

/-- A point by its `u` coordinate as a quotient. -/
structure Point where
  x : Nat
  z : Nat

namespace Point

/-- The point at infinity. -/
def infinity : Point := ⟨1, 0⟩

def ofCoordinate (u : Nat) : Point := ⟨u, 1⟩

/-- The `u` coordinate, which is zero for the point at infinity. -/
def coordinate (p : Point) : Nat := mul p.x (pow p.z (prime - 2))

def double (p : Point) : Point :=
  let s := mul (p.x + p.z) (p.x + p.z)
  let d := mul (sub p.x p.z) (sub p.x p.z)
  let e := sub s d
  ⟨mul s d, mul e (s + 121665 * e)⟩

/-- The sum of two points whose difference has the coordinate `u`. -/
def add (u : Nat) (p q : Point) : Point :=
  let a := mul (sub q.x q.z) (p.x + p.z)
  let b := mul (q.x + q.z) (sub p.x p.z)
  ⟨mul (a + b) (a + b), mul u (mul (sub a b) (sub a b))⟩

end Point

/-- The multiple of the point `u` by a scalar below `2 ^ 255`. The ladder holds two neighbouring
multiples and doubles the one that the next bit selects. -/
def multiply (scalar u : Nat) : Nat :=
  let step := fun (p, q) bit =>
    if bit then (Point.add u p q, q.double) else (p.double, Point.add u p q)
  ((bits 255 scalar).foldl step (Point.infinity, Point.ofCoordinate u)).1.coordinate

/-- The scalar that a secret key stands for: a multiple of eight with its highest bit at 254, taken
modulo the group order. -/
def scalar (secret : Octets 32) : Nat :=
  let n := LittleEndian.decode secret.toList % Nat.pow 2 254
  (n - n % 8 + Nat.pow 2 254) % order

/-- The field element in a public key, whose top bit is ignored. -/
def coordinate (key : Octets 32) : Nat :=
  LittleEndian.decode key.toList % Nat.pow 2 255 % prime

def encode (u : Nat) : Octets 32 :=
  ⟨LittleEndian.encode 32 u, by simp⟩

/-- The public key that belongs to a secret key. -/
def publicKey (secret : Octets 32) : Octets 32 :=
  encode (multiply (scalar secret) basePoint)

/-- The secret that the holder of `secret` shares with the holder of the secret key behind `key`. -/
def shared (secret key : Octets 32) : Octets 32 :=
  encode (multiply (scalar secret) (coordinate key))

end Rendezvous.Curve25519
