import Rendezvous.Box.Curve25519
import Rendezvous.CodecError
import Rendezvous.Text.Blank
import Rendezvous.Text.Utf8

/-!
Public keys, secret keys and pairs of them, and their forms as hexadecimal text.
-/

namespace Rendezvous

/-- A public key of Curve25519. -/
structure PublicKey where
  octets : Octets 32
  deriving DecidableEq

/-- A secret key of Curve25519. -/
structure SecretKey where
  octets : Octets 32
  deriving DecidableEq

namespace PublicKey

def bytes (k : PublicKey) : Bytes :=
  k.octets.toList

/-- The key with the given bytes, if there are 32. -/
def ofBytes? (bytes : Bytes) : Option PublicKey :=
  (Octets.ofList? bytes).map PublicKey.mk

def hex (k : PublicKey) : String :=
  Hex.encode k.bytes

/-- Whether two keys are the same point of the curve, though their bytes may differ. -/
def samePoint (a b : PublicKey) : Bool :=
  Curve25519.coordinate a.octets == Curve25519.coordinate b.octets

/-- Reads a key from exactly 64 digits. -/
def ofHex (text : String) : Except CodecError PublicKey :=
  let digits := Text.utf8 text
  if digits.length = 64 then
    match Hex.decode digits with
    | .error e => .error (.invalidKey (.publicNotHex e))
    | .ok bytes =>
      match ofBytes? bytes with
      | some key => .ok key
      | none => .error (.invalidKey (.other "bad length"))
  else .error (.invalidKey (.publicLength digits.length))

theorem ofBytes?_eq_some_iff {bytes : Bytes} {k : PublicKey} :
    ofBytes? bytes = some k ↔ bytes = k.bytes := by
  cases k
  simp [ofBytes?, Octets.ofList?_eq_some_iff, PublicKey.bytes]

theorem samePoint_self (k : PublicKey) : k.samePoint k = true := by
  simp [samePoint]

end PublicKey

/-- The public key that belongs to a secret key. -/
def SecretKey.publicKey (s : SecretKey) : PublicKey :=
  ⟨Curve25519.publicKey s.octets⟩

/-- A secret key and the public key that belongs to it. -/
structure KeyPair where
  secretKey : SecretKey
  publicKey : PublicKey
  publicKey_eq : publicKey = secretKey.publicKey
  deriving DecidableEq

namespace KeyPair

def ofSecret (s : SecretKey) : KeyPair :=
  ⟨s, s.publicKey, rfl⟩

/-- Reads a pair from the hexadecimal text of its secret key, with blanks around it. -/
def ofHex (text : String) : Except CodecError KeyPair :=
  match Hex.decode (Text.utf8 (Text.trim text)) with
  | .error e => .error (.invalidKey (.secretNotHex e))
  | .ok bytes =>
    match Octets.ofList? bytes with
    | some octets => .ok (ofSecret ⟨octets⟩)
    | none => .error (.invalidKey (.secretSize bytes.length))

/-- The pair as it is shown in descriptions, without its secret. -/
def describe (k : KeyPair) : String :=
  Text.record "KeyPair" [("public", Text.quoted k.publicKey.hex),
    ("secret", Text.quoted "[REDACTED]")]

end KeyPair

end Rendezvous
