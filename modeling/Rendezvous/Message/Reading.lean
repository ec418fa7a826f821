import Rendezvous.Message.Basic
import Rendezvous.MessagePack.Record

/-!
Reading messages from their payloads in plain. First the fields are read, then the kind of the
payload is compared with the expected one, then the values of the fields are checked.
-/

namespace Rendezvous

open MessagePack (Record Value)

/-- What was read from a payload, or the error that it has not the expected shape. -/
def shaped (a : Option α) : Except CodecError α :=
  match a with
  | some a => .ok a
  | none => .error .deserialization

/-- The name in the `type` field of a payload, which must have no other shape than a map. -/
def payloadKind (plain : Bytes) : Except CodecError String :=
  shaped do
    let r ← Record.read? ["type"] plain
    r.required? "type" Value.toText?

namespace MessageType

/-- The fields of a payload, of which `read` takes the values, if the payload is of this kind. -/
def readFields (t : MessageType) (plain : Bytes) (read : Record → Option α) :
    Except CodecError α := do
  let (name, fields) ← shaped do
    let r ← Record.read? t.fields plain
    let name ← r.required? "type" Value.toText?
    return (name, ← read r)
  if name = t.name then return fields else throw (.invalidField name "type")

/-- A value that was accepted, or the error that names the field. -/
def accept (t : MessageType) (field : String) (a : Option α) : Except CodecError α :=
  match a with
  | some a => .ok a
  | none => .error (.invalidField t.name field)

def acceptResponder (t : MessageType) (id : UInt8) : Except CodecError Address :=
  t.accept "id" (if (Address.mk id).isResponder then some ⟨id⟩ else none)

/-- The key in a payload that holds nothing else. -/
def readKey (t : MessageType) (plain : Bytes) : Except CodecError PublicKey := do
  let key ← t.readFields plain fun r => r.required? "key" Value.toBytes?
  t.accept "key" (PublicKey.ofBytes? key)

/-- The number in a payload that holds nothing else. -/
def readId (t : MessageType) (plain : Bytes) : Except CodecError UInt8 :=
  t.readFields plain fun r => r.required? "id" Value.toByte?

end MessageType

open MessageType

/-- Reads the payload of a client's proof. -/
def ClientAuth.read (plain : Bytes) : Except CodecError ClientAuth := do
  let t := MessageType.clientAuth
  let (cookie, subprotocols, ping, key) ← t.readFields plain fun r => do
    let cookie ← r.required? "your_cookie" Value.toBytes?
    let subprotocols ← r.required? "subprotocols" Value.toTexts?
    let ping ← r.required? "ping_interval" (Value.toNat? UInt32.size)
    let key ← r.optional? "your_key" Value.toBytes?
    return (cookie, subprotocols, UInt32.ofNat ping, key)
  let cookie ← t.accept "your_cookie" (Cookie.ofBytes? cookie)
  let key ← match key with
    | none => pure none
    | some key => some <$> t.accept "your_key" (PublicKey.ofBytes? key)
  return ⟨cookie, subprotocols, ping, key⟩

/-- Reads the payload of the server's answer, together with the box that vouches for its key. It
must tell about one other side and not about two. -/
def ServerAuth.read (plain : Bytes) : Except CodecError (ServerAuth × Option Bytes) := do
  let t := MessageType.serverAuth
  let (cookie, signed, connected, responders) ← t.readFields plain fun r => do
    let cookie ← r.required? "your_cookie" Value.toBytes?
    let signed ← r.optional? "signed_keys" Value.toBytes?
    let connected ← r.optional? "initiator_connected" Value.toBool?
    let responders ← r.optional? "responders" Value.toByteList?
    return (cookie, signed, connected, responders)
  let cookie ← t.accept "your_cookie" (Cookie.ofBytes? cookie)
  let otherSide ← t.accept "responders" <| match responders, connected with
    | some ids, none => some (OtherSide.responders (ids.map Address.mk))
    | none, some connected => some (OtherSide.initiator connected)
    | _, _ => none
  return (⟨cookie, otherSide⟩, signed)

/-- Reads the payload by which an initiator drops a responder. -/
def readDropResponder (plain : Bytes) : Except CodecError Message := do
  let t := MessageType.dropResponder
  let (id, code) ← t.readFields plain fun r => do
    let id ← r.required? "id" Value.toByte?
    let code ← r.optional? "reason" (Value.toNat? UInt16.size)
    return (id, code)
  let id ← t.acceptResponder id
  let reason ← match code with
    | none => pure none
    | some code =>
      let reason := (CloseCode.ofCode? (UInt16.ofNat code)).filter CloseCode.isDropReason
      some <$> t.accept "reason" reason
  return .dropResponder id reason

/-- Reads a payload as a message of the given kind. -/
def MessageType.read (t : MessageType) (plain : Bytes) : Except CodecError Message :=
  match t with
  | .serverHello => .serverHello <$> t.readKey plain
  | .clientHello => .clientHello <$> t.readKey plain
  | .clientAuth => .clientAuth <$> ClientAuth.read plain
  | .serverAuth => (fun (auth, _) => .serverAuth auth) <$> ServerAuth.read plain
  | .newInitiator => (fun () => .newInitiator) <$> t.readFields plain fun _ => some ()
  | .newResponder => do
    let id ← t.readId plain
    .newResponder <$> t.acceptResponder id
  | .dropResponder => readDropResponder plain
  | .sendError => do
    let id ← t.readFields plain fun r => r.required? "id" Value.toBytes?
    .sendError <$> t.accept "id" (Octets.ofList? id)
  | .disconnected => do
    let id ← t.readId plain
    .disconnected <$> t.accept "id" (if id = 0 then none else some ⟨id⟩)

/-- Reads a payload from a client as the kind that its `type` field names. A kind that clients have
no business with is an error in that field. -/
def Message.read (plain : Bytes) : Except CodecError Message := do
  let name ← payloadKind plain
  match fromClients.find? (·.name == name) with
  | some t => t.read plain
  | none => throw (.invalidField name "type")

end Rendezvous
