import Rendezvous.Box.Authenticated
import Rendezvous.Box.Keys
import Rendezvous.Frame

/-!
Sealing payloads from one key pair to another, and the box by which a permanent key vouches for a
session key.
-/

namespace Rendezvous.Box

/-- The key under which the two ends of a box seal. -/
def key (theirs : PublicKey) (ours : SecretKey) : Octets 32 :=
  symmetricKey (Curve25519.shared ours.octets theirs.octets)

/-- Seals a text for `theirs`. -/
def encrypt (theirs : PublicKey) (ours : SecretKey) (nonce : Nonce) (plain : Bytes) : Bytes :=
  encryptWith (key theirs ours) nonce plain

/-- Opens a box from `theirs`. -/
def decrypt (theirs : PublicKey) (ours : SecretKey) (nonce : Nonce) (sealed : Bytes) :
    Except CodecError Bytes :=
  match decryptWith? (key theirs ours) nonce sealed with
  | some plain => .ok plain
  | none => .error .cannotDecrypt

/-- The box that shows a client that its session key belongs to the holder of a permanent key: the
session key and the client's own key, sealed with the permanent key. -/
def signKeys (client session : PublicKey) (permanent : SecretKey) (nonce : Nonce) : Bytes :=
  encrypt client permanent nonce (session.bytes ++ client.bytes)

/-- A box opens for whoever derives the same key. -/
theorem decrypt_encrypt {theirs theirs' : PublicKey} {ours ours' : SecretKey} (nonce : Nonce)
    (plain : Bytes) (h : key theirs' ours' = key theirs ours) :
    decrypt theirs' ours' nonce (encrypt theirs ours nonce plain) = .ok plain := by
  simp [decrypt, encrypt, h, decryptWith?_encryptWith]

theorem length_encrypt (theirs : PublicKey) (ours : SecretKey) (nonce : Nonce) (plain : Bytes) :
    (encrypt theirs ours nonce plain).length = overhead + plain.length :=
  length_encryptWith ..

end Rendezvous.Box
