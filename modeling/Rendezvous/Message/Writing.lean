import Rendezvous.Message.Basic
import Rendezvous.Box.Sealing
import Rendezvous.MessagePack.Record

/-!
Writing messages: the payload in plain, and the payload as it is sent, which is sealed for the
receiver unless the message is a hello or a frame to hand on.
-/

namespace Rendezvous

open MessagePack (Record Value)

/-- The keys and the nonce with which a payload is sealed. -/
structure Sealing where
  /-- The key of the receiver. -/
  peer : Option PublicKey
  /-- The session keys of the sender. -/
  session : KeyPair
  /-- The permanent keys that vouch for the session keys. -/
  permanent : Option KeyPair
  /-- The header of the frame. -/
  nonce : Nonce

namespace Message

/-- The fields of a payload behind its `type`. The box that vouches for the session key is a field
of the server's answer alone. -/
def fields (signedKeys : Option Bytes) : Message → Record
  | .serverHello key => [("key", .bin key.bytes)]
  | .clientHello key => [("key", .bin key.bytes)]
  | .clientAuth auth =>
    [("your_cookie", .bin auth.yourCookie.bytes),
      ("subprotocols", .array (auth.subprotocols.map .ofText)),
      ("ping_interval", .unsigned auth.pingInterval.toNat)] ++
    (auth.yourKey.map fun key => ("your_key", .bin key.bytes)).toList
  | .serverAuth auth =>
    ("your_cookie", .bin auth.yourCookie.bytes) ::
    (signedKeys.map fun box => ("signed_keys", .bin box)).toList ++
    match auth.otherSide with
    | .initiator connected => [("initiator_connected", .bool connected)]
    | .responders addresses =>
      [("responders", .array (addresses.map fun a => .unsigned a.value.toNat))]
  | .newInitiator => []
  | .newResponder id => [("id", .unsigned id.value.toNat)]
  | .dropResponder id reason =>
    ("id", .unsigned id.value.toNat) ::
    (reason.map fun c => ("reason", .unsigned c.code.toNat)).toList
  | .sendError id => [("id", .bin id.toList)]
  | .disconnected id => [("id", .unsigned id.value.toNat)]
  | .raw .. => []

/-- The payload in plain. A frame to hand on stays as it is. -/
def plain (signedKeys : Option Bytes) (m : Message) : Bytes :=
  match m with
  | .raw _ frame => frame
  | m => Record.write (("type", .ofText m.kind) :: m.fields signedKeys)

def isSealed (m : Message) : Bool :=
  match m.type? with
  | some t => t.isSealed
  | none => false

/-- The box that vouches for the session key, which the server's answer holds if there is a
permanent key. -/
def signedKeys (s : Sealing) : Message → Except CodecError (Option Bytes)
  | .serverAuth _ =>
    match s.permanent, s.peer with
    | none, _ => .ok none
    | some _, none => .error .missingClientKey
    | some permanent, some peer =>
      .ok (Box.signKeys peer s.session.publicKey permanent.secretKey s.nonce)
  | _ => .ok none

def payload (s : Sealing) (m : Message) : Except CodecError Bytes := do
  let signed ← m.signedKeys s
  let plain := m.plain signed
  if m.isSealed then
    match s.peer with
    | some peer => return Box.encrypt peer s.session.secretKey s.nonce plain
    | none => throw .missingClientKey
  else return plain

end Message

end Rendezvous
