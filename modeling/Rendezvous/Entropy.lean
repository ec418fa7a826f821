import Rendezvous.Box.Keys
import Rendezvous.Cookie
import Rendezvous.SequenceNumber

/-!
Random bytes, and what is drawn from them: key pairs, cookies and first sequence numbers.
-/

namespace Rendezvous

/-- A source of random bytes, as the bytes it is going to yield. Zero bytes follow them. -/
structure Entropy where
  bytes : Bytes
  deriving DecidableEq

namespace Entropy

/-- The next `n` bytes, and the source after them. -/
def draw (n : Nat) (e : Entropy) : Octets n × Entropy :=
  (Octets.fit e.bytes, ⟨e.bytes.drop n⟩)

def drawKeyPair (e : Entropy) : KeyPair × Entropy :=
  let (secret, e) := e.draw 32
  (KeyPair.ofSecret ⟨secret⟩, e)

def drawCookie (e : Entropy) : Cookie × Entropy :=
  let (octets, e) := e.draw 16
  (⟨octets⟩, e)

/-- A fresh sequence number, which has not wrapped yet. -/
def drawSequenceNumber (e : Entropy) : SequenceNumber × Entropy :=
  let (octets, e) := e.draw 4
  (⟨0, UInt32.ofNat (LittleEndian.decode octets.toList)⟩, e)

end Entropy

end Rendezvous
