import Rendezvous.Box.Curve25519
import Rendezvous.Box.Salsa20
import Rendezvous.Box.Poly1305

/-!
Boxes: authenticated encryption between two key pairs, as a tag of sixteen bytes followed by the
encrypted text. Main statements: what was sealed opens (`decryptWith?_encryptWith`), and a box is sixteen bytes
longer than its content (`length_encryptWith`).
-/

namespace Rendezvous.Box

/-- How many bytes a box is longer than its content. -/
def overhead : Nat := 16

/-- The key under which a shared secret seals boxes. -/
def symmetricKey (shared : Octets 32) : Octets 32 :=
  Salsa20.derive shared (Octets.fit [])

/-- The key of the tag, and the stream that hides a text of the given size. -/
def keyStream (key : Octets 32) (nonce : Octets 24) (size : Nat) : Octets 32 × Bytes :=
  let stream := Salsa20.stream key nonce (32 + size)
  (⟨stream.take 32, by simp [stream, Salsa20.length_stream]⟩, stream.drop 32)

/-- Seals a text. -/
def encryptWith (key : Octets 32) (nonce : Octets 24) (plain : Bytes) : Bytes :=
  let (tagKey, stream) := keyStream key nonce plain.length
  let hidden := Salsa20.xor plain stream
  (Poly1305.tag tagKey hidden).toList ++ hidden

/-- Opens a box, if its tag is right. -/
def decryptWith? (key : Octets 32) (nonce : Octets 24) (sealed : Bytes) : Option Bytes :=
  if sealed.length < overhead then none
  else
    let hidden := sealed.drop overhead
    let (tagKey, stream) := keyStream key nonce hidden.length
    if (Poly1305.tag tagKey hidden).toList = sealed.take overhead then
      some (Salsa20.xor hidden stream)
    else none

theorem length_keyStream (key : Octets 32) (nonce : Octets 24) (size : Nat) :
    (keyStream key nonce size).2.length = size := by
  simp [keyStream, Salsa20.length_stream]

theorem length_encryptWith (key : Octets 32) (nonce : Octets 24) (plain : Bytes) :
    (encryptWith key nonce plain).length = overhead + plain.length := by
  simp [encryptWith, Salsa20.xor, length_keyStream, (Poly1305.tag _ _).length_toList, overhead]

theorem decryptWith?_encryptWith (key : Octets 32) (nonce : Octets 24) (plain : Bytes) :
    decryptWith? key nonce (encryptWith key nonce plain) = some plain := by
  have hlen : (Salsa20.xor plain (keyStream key nonce plain.length).2).length = plain.length := by
    simp [Salsa20.xor, length_keyStream]
  have hseal := length_encryptWith key nonce plain
  have hdrop : (encryptWith key nonce plain).drop overhead =
      Salsa20.xor plain (keyStream key nonce plain.length).2 := by
    simp [encryptWith, overhead, (Poly1305.tag _ _).length_toList]
  have htake : (encryptWith key nonce plain).take overhead =
      (Poly1305.tag (keyStream key nonce plain.length).1
        (Salsa20.xor plain (keyStream key nonce plain.length).2)).toList := by
    simp [encryptWith, overhead, (Poly1305.tag _ _).length_toList]
  rw [decryptWith?, if_neg (by omega)]
  simp only [hdrop, htake, hlen, if_true]
  rw [Salsa20.xor_xor_cancel (Nat.le_of_eq (length_keyStream ..).symm)]

end Rendezvous.Box
