import Rendezvous.Peer
import Rendezvous.Proofs.Client.Steps
import Rendezvous.Proofs.Frame
import Rendezvous.Proofs.Message.RoundTrip

/-!
# The two ends of a connection

The server and its peer are written apart from each other: one packs a message into a frame, the other
takes it out. Here they are put together. A frame that is packed for a client is read by the peer at the
other end as just this message, as long as the peer is up to date about cookie and numbers, and opens
what is sealed for the client.

* **`KeyPair.Agrees`** — what is assumed of the boxes: both ends derive the same key.
* **`Message.Spoken`** — what the server says.
* **`Peer.Follows`** — a peer that has received all that was sent to a client so far.
* **`Peer.receive_pack`** — it receives the next frame that is packed, and is up to date again.
-/

namespace Rendezvous

/-- Two key pairs derive the same key for their boxes, whichever of them derives it. -/
def KeyPair.Agrees (a b : KeyPair) : Prop :=
  Box.key a.publicKey b.secretKey = Box.key b.publicKey a.secretKey

/-- They do if they get to the same point. -/
theorem KeyPair.Agrees.of_multiply {a b : KeyPair}
    (h : Curve25519.multiply (Curve25519.scalar b.secretKey.octets)
        (Curve25519.coordinate a.publicKey.octets) =
      Curve25519.multiply (Curve25519.scalar a.secretKey.octets)
        (Curve25519.coordinate b.publicKey.octets)) : a.Agrees b :=
  congrArg (fun u => Box.symmetricKey (Curve25519.encode u)) h

/-- Keys that are the same point are the same to a box. -/
theorem Box.key_congr {a b : PublicKey} (h : a.samePoint b = true) (secret : SecretKey) :
    key a secret = key b secret := by
  unfold PublicKey.samePoint at h
  rw [beq_iff_eq] at h
  unfold key Curve25519.shared
  rw [h]

theorem Box.encrypt_ne_nil (theirs : PublicKey) (ours : SecretKey) (nonce : Nonce) (plain : Bytes) :
    encrypt theirs ours nonce plain ≠ [] := by
  refine List.ne_nil_of_length_pos ?_
  rw [length_encrypt, overhead]
  omega

/-- What is sealed for a key opens for whoever has the secret key behind it. -/
theorem KeyPair.Agrees.opens {ours theirs : KeyPair} {key : PublicKey} (h : ours.Agrees theirs)
    (hkey : key.samePoint ours.publicKey = true) (nonce : Nonce) (plain : Bytes) :
    Box.decrypt theirs.publicKey ours.secretKey nonce
      (Box.encrypt key theirs.secretKey nonce plain) = .ok plain := by
  refine Box.decrypt_encrypt nonce plain ?_
  rw [Box.key_congr hkey]
  exact h.symm

/-- Signed keys stand the test of the peer that they are for. -/
theorem Peer.verifySignedKeys_signKeys {p : Peer} {ours theirs : KeyPair} {permanent key : PublicKey}
    (hkeys : p.keys = ours) (hserver : p.serverKey = some key) (h : ours.Agrees theirs)
    (hsame : permanent.samePoint theirs.publicKey = true) (nonce : Nonce) :
    p.verifySignedKeys permanent nonce
      (Box.signKeys ours.publicKey key theirs.secretKey nonce) = true := by
  subst hkeys
  have hopen : Box.decrypt permanent p.keys.secretKey nonce
      (Box.signKeys p.keys.publicKey key theirs.secretKey nonce) =
        .ok (key.bytes ++ p.keys.publicKey.bytes) :=
    Box.decrypt_encrypt nonce _ ((Box.key_congr hsame _).trans h.symm)
  simp only [verifySignedKeys, hserver, hopen, beq_self_eq_true]

/-! ## What the server says -/

/-- The kinds of messages that the server sends. -/
def MessageType.fromServer : List MessageType :=
  [.serverHello, .serverAuth, .newInitiator, .newResponder, .sendError, .disconnected]

/-- What the server says. -/
structure Message.Spoken (m : Message) : Prop where
  valid : m.Valid
  fits : m.Fits
  kind : ∃ t ∈ MessageType.fromServer, m.type? = some t

/-- What a peer makes of a message, of the nonce of its frame, and of the box in the server's answer. -/
def Message.received (signed : Option Bytes) (nonce : Nonce) : Message → Received
  | .serverAuth auth => .answer auth signed nonce
  | m => .message m

/-- A frame starts with the nonce of what is sealed in it. -/
theorem Client.nonce_of_pack {c c' : Client} {destination : Address} {m : Message} {frame : Bytes}
    (h : c.pack destination m = .ok (frame, c')) :
    (c.nextHeader destination).nonce.toList = frame.take 24 := by
  obtain ⟨-, octets, payload, next, hoctets, -, -, rfl, -⟩ := pack_eq_ok.mp h
  rw [Header.nonce_of_toOctets hoctets]
  exact (List.take_left' octets.length_toList).symm

/-- The server introduces itself first, and all else that it says is sealed. -/
def Client.MaySay (c : Client) (m : Message) : Prop :=
  (c.phase = .fresh ∧ m = .serverHello c.session.publicKey) ∨
    (c.phase ≠ .fresh ∧ m.isSealed = true)

namespace Peer

variable {p : Peer} {c c₁ : Client} {m : Message} {signed : Option Bytes} {f : Frame}
  {key : PublicKey}

/-! ## Payloads -/

/-- A sealed message is read as what it is. -/
theorem readSealed_plain (hspoken : m.Spoken) (hsealed : m.isSealed = true)
    (hsigned : Message.BoxFits signed)
    (hopen : Box.decrypt key p.keys.secretKey f.header.nonce f.payload = .ok (m.plain signed)) :
    p.readSealed key f = .ok (m.received signed f.header.nonce) := by
  obtain ⟨hvalid, hfits, t, ht, htype⟩ := hspoken
  have hread := MessageType.read_plain htype hvalid hfits hsigned
  have hall : t ∈ MessageType.all := by cases t <;> decide
  refine bind_eq_ok.mpr ⟨m.plain signed, hopen,
    bind_eq_ok.mpr ⟨t.name, Message.payloadKind_plain htype hfits hsigned, ?_⟩⟩
  rw [MessageType.find?_name hall]
  cases m with
  | serverAuth auth =>
    cases htype
    exact bind_eq_ok.mpr ⟨(auth, signed), ServerAuth.read_plain auth hfits hsigned, rfl⟩
  | newInitiator | newResponder | sendError | disconnected =>
    cases htype
    exact map_eq_ok.mpr ⟨_, hread, rfl⟩
  | clientAuth | dropResponder =>
    cases htype
    exact absurd ht (by decide)
  | serverHello | clientHello | raw => cases hsealed

/-! ## Headers -/

/-- The frame is accepted that has the server's cookie and its next number. -/
theorem acceptHeader_of {h : Header} {next : SequenceNumber}
    (hcookie : ∀ cookie, p.serverCookie = some cookie → cookie = h.cookie)
    (hnumber : ∀ number, p.serverNumber = some number → number = h.number)
    (hnext : h.number.next = .ok next) :
    p.acceptHeader h =
      (.ok (), { p with serverCookie := some h.cookie, serverNumber := some next }) := by
  have hsame : p.serverCookie.any (· ≠ h.cookie) = false := by
    cases hc : p.serverCookie with
    | none => rfl
    | some cookie => simp [hcookie cookie hc]
  have hexpected : p.serverNumber.any (· ≠ h.number) = false := by
    cases hn : p.serverNumber with
    | none => rfl
    | some number => simp [hnumber number hn]
  unfold acceptHeader
  rw [hsame]
  dsimp only
  rw [hexpected, hnext]
  rfl

/-! ## Frames -/

/-- A peer that has received all that was sent to a client so far. -/
structure Follows (p : Peer) (c : Client) : Prop where
  cookie : ∀ cookie, p.serverCookie = some cookie → cookie = c.cookie
  number : ∀ number, p.serverNumber = some number → number = c.nextNumber
  serverKey : p.serverKey = if c.phase = .fresh then none else some c.session.publicKey

/-- A peer that can open what is sealed for a client. -/
def Opens (p : Peer) (c : Client) : Prop :=
  ∀ key, c.phase.clientKey? = some key → ∀ nonce plain,
    Box.decrypt c.session.publicKey p.keys.secretKey nonce
      (Box.encrypt key c.session.secretKey nonce plain) = .ok plain

theorem Follows.congr {c' : Client} (h : p.Follows c) (hcookie : c'.cookie = c.cookie)
    (hsession : c'.session = c.session) (hnumber : c'.nextNumber = c.nextNumber)
    (hphase : c'.phase = .fresh ↔ c.phase = .fresh) : p.Follows c' := by
  refine ⟨?_, ?_, ?_⟩
  · rw [hcookie]
    exact h.cookie
  · rw [hnumber]
    exact h.number
  · rw [hsession, h.serverKey]
    exact if_congr hphase.symm rfl rfl

/-- The frame of another client is passed over. -/
theorem receive_relayed {bytes : Bytes} (hparse : Frame.parse bytes = .ok f)
    (hsource : f.header.source ≠ .server) : p.receive bytes = (.ok (.relayed bytes), p) := by
  unfold receive
  rw [hparse]
  exact if_pos hsource

/-- **What is packed is received.** The first frame introduces the server, and all others are sealed. -/
theorem receive_pack {destination : Address} {frame : Bytes} (hfollows : p.Follows c)
    (hopens : p.Opens c)
    (hspoken : m.Spoken) (hpack : c.pack destination m = .ok (frame, c₁))
    (hturn : c.MaySay m) :
    ∃ signed, m.signedKeys (c.sealing (c.nextHeader destination).nonce) = .ok signed ∧
      p.receive frame = (.ok (m.received signed (c.nextHeader destination).nonce),
        { p with serverCookie := some c.cookie, serverNumber := some c₁.nextNumber }.note
          (c.nextHeader destination) (m.received signed (c.nextHeader destination).nonce)) := by
  obtain ⟨-, octets, payload, next, hoctets, hpayload, hnext, rfl, rfl⟩ :=
    Client.pack_eq_ok.mp hpack
  have hnonce := Header.nonce_of_toOctets hoctets
  rw [← hnonce] at hpayload
  obtain ⟨signed, hsigned, hform⟩ := Message.payload_eq_ok.mp hpayload
  have hsize := Message.length_of_signedKeys hsigned
  have haccept := acceptHeader_of (p := p) (h := c.nextHeader destination) hfollows.cookie
    hfollows.number hnext
  refine ⟨signed, hsigned, ?_⟩
  have hread : payload ≠ [] ∧
      { p with serverCookie := some c.cookie, serverNumber := some next }.readPayload
        ⟨c.nextHeader destination, payload⟩ =
        .ok (m.received signed (c.nextHeader destination).nonce) := by
    have hkey := hfollows.serverKey
    unfold readPayload
    dsimp only
    rcases hturn with ⟨hfresh, rfl⟩ | ⟨hstarted, hsealed⟩
    · rw [if_pos hfresh] at hkey
      rw [hkey]
      rcases hform with ⟨-, rfl⟩ | ⟨hsealed, -⟩
      · exact ⟨Message.plain_ne_nil rfl,
          map_eq_ok.mpr ⟨_, MessageType.read_plain rfl hspoken.valid hspoken.fits hsize, rfl⟩⟩
      · cases hsealed
    · rw [if_neg hstarted] at hkey
      rw [hkey]
      rcases hform with ⟨hplain, -⟩ | ⟨-, key, hpeer, rfl⟩
      · cases hsealed.symm.trans hplain
      · exact ⟨Box.encrypt_ne_nil _ _ _ _, readSealed_plain hspoken hsealed hsize (hopens key hpeer _ _)⟩
  obtain ⟨hne, hread⟩ := hread
  unfold receive
  rw [Frame.parse_append hoctets hne]
  dsimp only
  rw [if_neg (show ¬ (c.nextHeader destination).source ≠ .server from not_not.mpr rfl), haccept]
  dsimp only
  rw [show (c.nextHeader destination).cookie = c.cookie from rfl, hread]

@[simp] theorem keys_note (p : Peer) (h : Header) (received : Received) :
    (p.note h received).keys = p.keys := by
  unfold note
  split <;> rfl

/-- After the frame the peer is up to date again. -/
theorem follows_note (c' : Client) {nonce : Nonce} (hfollows : p.Follows c)
    (hturn : c.MaySay m)
    (hcookie : c'.cookie = c.cookie) (hsession : c'.session = c.session)
    (hstarted : c'.phase ≠ .fresh) (h : Header) :
    ({ p with serverCookie := some c.cookie, serverNumber := some c'.nextNumber }.note h
      (m.received signed nonce)).Follows c' := by
  have hkey := hfollows.serverKey
  rcases hturn with ⟨-, rfl⟩ | ⟨hnot, hsealed⟩
  · refine ⟨?_, ?_, ?_⟩
    · rintro _ ⟨⟩
      exact hcookie.symm
    · rintro _ ⟨⟩
      rfl
    · rw [if_neg hstarted, hsession]
      rfl
  · rw [if_neg hnot] at hkey
    have hnoted : ∀ p' : Peer, (p'.note h (m.received signed nonce)).serverCookie = p'.serverCookie ∧
        (p'.note h (m.received signed nonce)).serverNumber = p'.serverNumber ∧
        (p'.note h (m.received signed nonce)).serverKey = p'.serverKey := by
      intro p'
      cases m with
      | serverHello => cases hsealed
      | _ => exact ⟨rfl, rfl, rfl⟩
    obtain ⟨hnoted, hnumber, hserver⟩ := hnoted
      { p with serverCookie := some c.cookie, serverNumber := some c'.nextNumber }
    refine ⟨?_, ?_, ?_⟩
    · rw [hnoted]
      rintro _ ⟨⟩
      exact hcookie.symm
    · rw [hnumber]
      rintro _ ⟨⟩
      rfl
    · rw [hserver, if_neg hstarted, hsession]
      exact hkey

/-! ## Streams of frames -/

/-- Receives frames, one after the other, whatever comes of each. -/
def receiveAll (p : Peer) : List Bytes → List (Except PeerError Received) × Peer
  | [] => ([], p)
  | frame :: rest =>
    let (result, p) := p.receive frame
    let (results, p) := p.receiveAll rest
    (result :: results, p)

theorem length_receiveAll (p : Peer) (frames : List Bytes) :
    (p.receiveAll frames).1.length = frames.length := by
  induction frames generalizing p with
  | nil => rfl
  | cons frame rest ih => simp only [receiveAll, List.length_cons, ih]

theorem receiveAll_append (p : Peer) (xs ys : List Bytes) :
    p.receiveAll (xs ++ ys) =
      ((p.receiveAll xs).1 ++ ((p.receiveAll xs).2.receiveAll ys).1,
        ((p.receiveAll xs).2.receiveAll ys).2) := by
  induction xs generalizing p with
  | nil => rfl
  | cons frame xs ih => simp only [List.cons_append, receiveAll, ih]

end Peer

end Rendezvous
