import Rendezvous.Proofs.Peer

/-!
# What the server makes of a peer's frames

The other direction of a connection: the peer writes, and the server reads. A peer's frames are accepted
as long as its address is the client's and its cookie and number are those that the client has to go on
with (`Client.Awaits`), and a frame that was accepted keeps it so for the next one.

A responder's introduction is in plain, and all else is sealed. Right after the greeting the server does
not know yet which of both it is given, and looks for an introduction first. So the proof of an initiator
is opened only if the box itself does not happen to read as an introduction.
-/

namespace Rendezvous

open SequenceNumber (isSentinel_of_next)

variable {p : Peer} {c : Client} {next : SequenceNumber} {key : PublicKey} {cookie : Cookie}

namespace Peer

/-- The header of the peer's next frame to the server. -/
def header (p : Peer) : Header :=
  ⟨p.cookie, p.id, .server, p.number⟩

/-! ## Writing -/

/-- What the peer writes is a header and a payload, for which a number is used up. -/
theorem frameWith_eq {payload : Nonce → Except CodecError Bytes} {bytes : Bytes}
    (hnext : p.number.next = .ok next) (hpayload : payload p.header.nonce = .ok bytes) :
    ∃ octets, p.header.toOctets = .ok octets ∧
      p.frameWith .server payload = .ok (octets.toList ++ bytes, { p with number := next }) := by
  obtain ⟨octets, hoctets⟩ : ∃ octets, p.header.toOctets = .ok octets :=
    Header.toOctets_ok (isSentinel_of_next hnext)
  have hheader : p.nextHeader .server = .ok (p.header, { p with number := next }) := by
    unfold nextHeader
    rw [hnext]
    rfl
  have hframe : (Frame.mk p.header bytes).toBytes = .ok (octets.toList ++ bytes) :=
    bind_eq_ok.mpr ⟨octets, hoctets, rfl⟩
  refine ⟨octets, hoctets, bind_eq_ok.mpr ⟨_, hheader, ?_⟩⟩
  refine bind_eq_ok.mpr ⟨bytes, mapError_eq_ok.mpr hpayload, ?_⟩
  exact bind_eq_ok.mpr ⟨_, mapError_eq_ok.mpr hframe, rfl⟩

/-- An introduction is in plain. -/
theorem clientHello_eq (hnext : p.number.next = .ok next) :
    ∃ octets, p.header.toOctets = .ok octets ∧
      p.clientHello = .ok (octets.toList ++ (Message.clientHello p.keys.publicKey).plain none,
        { p with number := next }) := by
  let payload : Nonce → Except CodecError Bytes := fun nonce =>
    (Message.clientHello p.keys.publicKey).payload ⟨none, p.keys, none, nonce⟩
  have hpayload : payload p.header.nonce =
      .ok ((Message.clientHello p.keys.publicKey).plain none) :=
    Message.payload_eq_ok.mpr ⟨none, rfl, .inl ⟨rfl, rfl⟩⟩
  exact frameWith_eq hnext hpayload

/-- A proof is sealed for the session. -/
theorem clientAuth_eq (hnext : p.number.next = .ok next) (hcookie : p.serverCookie = some cookie)
    (hkey : p.serverKey = some key) (subprotocols : List String) (pingInterval : UInt32)
    (yourKey : Option PublicKey) :
    ∃ octets, p.header.toOctets = .ok octets ∧
      p.clientAuth subprotocols pingInterval yourKey = .ok (octets.toList ++
        Box.encrypt key p.keys.secretKey p.header.nonce
          ((Message.clientAuth ⟨cookie, subprotocols, pingInterval, yourKey⟩).plain none),
        { p with number := next }) := by
  let payload : Nonce → Except CodecError Bytes := fun nonce =>
    (Message.clientAuth ⟨cookie, subprotocols, pingInterval, yourKey⟩).payload
      ⟨some key, p.keys, none, nonce⟩
  have hpayload : payload p.header.nonce = .ok (Box.encrypt key p.keys.secretKey p.header.nonce
      ((Message.clientAuth ⟨cookie, subprotocols, pingInterval, yourKey⟩).plain none)) :=
    Message.payload_eq_ok.mpr ⟨none, rfl, .inr ⟨rfl, key, rfl, rfl⟩⟩
  have hauth : p.clientAuth subprotocols pingInterval yourKey = p.frameWith .server payload := by
    unfold clientAuth messageFrame heardServer
    rw [hcookie, hkey]
    rfl
  rw [hauth]
  exact frameWith_eq hnext hpayload

/-- What the peer knows of the server does not depend on what it wrote. -/
theorem Follows.wrote (h : p.Follows c) (next : SequenceNumber) :
    { p with number := next }.Follows c :=
  ⟨h.cookie, h.number, h.serverKey⟩

end Peer

namespace Client

/-! ## Reading -/

/-- The client goes on with the next frame of the peer. -/
structure Awaits (c : Client) (p : Peer) : Prop where
  id : p.id = c.id
  header : (c.expected = none ∧ p.cookie ≠ c.cookie ∧ p.number.overflow = 0) ∨
    c.expected = some ⟨p.cookie, p.number⟩

/-- The client after the next frame of the peer. -/
def after (c : Client) (p : Peer) (next : SequenceNumber) : Client :=
  { c with expected := some ⟨p.cookie, next⟩ }

/-- The next frame is read as what its payload is opened as. -/
theorem Awaits.unpack {octets : Octets 24} {payload : Bytes} {m : Message} (h : c.Awaits p)
    (hoctets : p.header.toOctets = .ok octets) (hnext : p.number.next = .ok next)
    (hne : payload ≠ []) (hopen : c.openPayload ⟨p.header, payload⟩ = .ok m) :
    c.unpack (octets.toList ++ payload) = .ok (m, c.after p next) := by
  refine unpack_eq_ok.mpr ⟨⟨p.header, payload⟩, Frame.parse_append hoctets hne, h.id, .inl ⟨rfl,
    ⟨p.cookie, next⟩, acceptHeader_eq_ok.mpr ⟨rfl, hnext, ?_⟩, hopen, rfl⟩⟩
  rcases h.header with ⟨hnone, hcookie, hoverflow⟩ | hsome
  · exact .inl ⟨hnone, hcookie, hoverflow⟩
  · exact .inr hsome

/-- **The introduction of a responder** is read, right after the greeting. -/
theorem Awaits.unpack_clientHello (h : c.Awaits p) (hnext : p.number.next = .ok next)
    (hphase : c.phase = .greeted) :
    ∃ frame, p.clientHello = .ok (frame, { p with number := next }) ∧
      c.unpack frame = .ok (.clientHello p.keys.publicKey, c.after p next) := by
  obtain ⟨octets, hoctets, hframe⟩ := Peer.clientHello_eq hnext
  have hread : Message.read ((Message.clientHello p.keys.publicKey).plain none) =
      .ok (.clientHello p.keys.publicKey) :=
    Message.read_plain (t := .clientHello) rfl (by decide) trivial trivial Message.boxFits_none
  refine ⟨_, hframe, h.unpack hoctets hnext (Message.plain_ne_nil rfl) ?_⟩
  unfold openPayload
  rw [hphase, hread]

/-- What the client seals with the session is opened. -/
theorem openSealed_clientAuth {auth : ClientAuth} (h : Header)
    (hagrees : p.keys.Agrees c.session) (hkey : c.peerKey = p.keys.publicKey)
    (hfits : (Message.clientAuth auth).Fits) :
    c.openSealed ⟨h, Box.encrypt c.session.publicKey p.keys.secretKey h.nonce
      ((Message.clientAuth auth).plain none)⟩ = .ok (.clientAuth auth) := by
  have hread : Message.read ((Message.clientAuth auth).plain none) = .ok (.clientAuth auth) :=
    Message.read_plain (t := .clientAuth) rfl (by decide) trivial hfits Message.boxFits_none
  refine openSealed_eq_ok.mpr ⟨_, ?_, hread⟩
  rw [hkey]
  exact Box.decrypt_encrypt _ _ hagrees

/-- **The proof of a client** is read, unless its box reads as an introduction where one is looked for. -/
theorem Awaits.unpack_clientAuth {subprotocols : List String} {pingInterval : UInt32}
    {yourKey : Option PublicKey} (h : c.Awaits p) (hnext : p.number.next = .ok next)
    (hcookie : p.serverCookie = some c.cookie) (hserver : p.serverKey = some c.session.publicKey)
    (hagrees : p.keys.Agrees c.session) (hkey : c.peerKey = p.keys.publicKey)
    (hfits : (Message.clientAuth ⟨c.cookie, subprotocols, pingInterval, yourKey⟩).Fits) :
    ∃ frame, p.clientAuth subprotocols pingInterval yourKey = .ok (frame, { p with number := next }) ∧
      ((c.phase = .greeted → ∀ key, Message.read (frame.drop 24) ≠ .ok (.clientHello key)) →
        c.unpack frame = .ok (.clientAuth ⟨c.cookie, subprotocols, pingInterval, yourKey⟩,
          c.after p next)) := by
  obtain ⟨octets, hoctets, hframe⟩ := Peer.clientAuth_eq hnext hcookie hserver subprotocols
    pingInterval yourKey
  have hsealed := openSealed_clientAuth p.header hagrees hkey hfits
  refine ⟨_, hframe, fun hsecret => h.unpack hoctets hnext (Box.encrypt_ne_nil _ _ _ _) ?_⟩
  rw [List.drop_left' octets.length_toList] at hsecret
  unfold openPayload
  split
  · next key hphase hread => exact absurd hread (hsecret hphase key)
  · exact hsealed

end Client

end Rendezvous
