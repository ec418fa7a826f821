import Rendezvous.Client.Handshake

/-!
The upgrade of a request to a connection. The request's path names the initiator's key, and its offers
of subprotocols are compared with those that the relay speaks.
-/

namespace Rendezvous

/-- A request to open a connection: its target, and the values of its headers for subprotocols. -/
structure UpgradeRequest where
  target : String
  protocols : List Bytes
  deriving DecidableEq

/-- What becomes of a request. -/
inductive Upgrade where
  /-- The path is not the digits of a key. -/
  | rejected
  /-- The connection is opened, and closed again if no subprotocol is shared. -/
  | accepted (key : PublicKey) (subprotocol : Option String)
  deriving DecidableEq

namespace Upgrade

/-- The status of a request that is answered in place of being upgraded. -/
def rejectedStatus : Nat := 400

/-- The status of a request that is upgraded. -/
def acceptedStatus : Nat := 101

def rejectedBody : String := "invalid path"

/-- The key that a path names: a slash, and exactly 64 hexadecimal digits behind it. -/
def pathKey? (path : String) : Option PublicKey :=
  match path.toList with
  | '/' :: rest =>
    let digits := Text.utf8 (String.ofList rest)
    if digits.length = 64 ∧ digits.all fun b => (Hex.digitValue? b).isSome then
      (PublicKey.ofHex (String.ofList rest)).toOption
    else none
  | _ => none

/-- The path of a target, which is all of it up to the query. -/
def path (target : String) : String :=
  String.ofList (target.toList.takeWhile (· != '?'))

/-- The text of a header's value, if it consists of printable ASCII characters and tabs. -/
def headerText? (value : Bytes) : Option String :=
  if value.all fun b => b == 0x09 || (0x20 ≤ b && b ≤ 0x7e) then Text.ofUtf8? value else none

/-- The offered subprotocols: the parts between the commas of all values. -/
def offers (values : List Bytes) : List String :=
  (values.filterMap headerText?).flatMap fun text => text.splitOn ","

def decide (service : Service) (request : UpgradeRequest) : Upgrade :=
  match pathKey? (path request.target) with
  | none => .rejected
  | some key => .accepted key (service.negotiate (offers request.protocols))

end Upgrade

end Rendezvous
