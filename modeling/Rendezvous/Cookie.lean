import Rendezvous.Bytes.Hex

/-!
Cookies: sixteen random bytes that name one direction of a connection.
-/

namespace Rendezvous

/-- Sixteen bytes that name one direction of a connection. -/
structure Cookie where
  octets : Octets 16
  deriving DecidableEq

namespace Cookie

/-- The cookie with the given bytes, if there are sixteen. -/
def ofBytes? (bytes : Bytes) : Option Cookie :=
  (Octets.ofList? bytes).map Cookie.mk

def bytes (c : Cookie) : Bytes :=
  c.octets.toList

/-- The cookie as it is shown in descriptions: its first four bytes. -/
def describe (c : Cookie) : String :=
  "Cookie(" ++ Hex.encode (c.bytes.take 4) ++ ")"

theorem ofBytes?_eq_some_iff {bytes : Bytes} {c : Cookie} :
    ofBytes? bytes = some c ↔ bytes = c.bytes := by
  cases c
  simp [ofBytes?, Octets.ofList?_eq_some_iff, Cookie.bytes]

end Cookie

end Rendezvous
