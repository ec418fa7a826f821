import Rendezvous.Proofs.Relay.Run
import Rendezvous.Proofs.Relay.Steps

/-!
# Clients that lost their address

A client loses its address when it is displaced, dropped or torn down, and its connection may still
bring frames. Relaying checks that the sender still has its address; dropping a responder does not. So
such a client can act on its path in exactly one way.

* **`Relay.SameBut`** — a step leaves the addresses and the channels of all other clients alone.
* **`Relay.Drops`** — a frame by which an initiator drops someone, whether or not it has its address.
* **`received_sameBut_iff`** — a frame of a client without its address does nothing to others, unless it
  drops someone.
-/

namespace Rendezvous

namespace Client

variable {c c' : Client}

theorem phase_of_isAuthenticated (h : c.isAuthenticated = true) :
    ∃ a id, c.phase = .seated a id := by
  unfold isAuthenticated at h
  cases hp : c.phase with
  | seated a id => exact ⟨a, id, rfl⟩
  | _ =>
    rw [hp] at h
    cases h

/-- An authenticated client neither introduces nor proves itself again. -/
theorem introduce_of_isAuthenticated (h : c.isAuthenticated = true) (key : PublicKey) :
    c.introduce key = .error (c.unexpected .clientHello) := by
  obtain ⟨a, id, hp⟩ := phase_of_isAuthenticated h
  simp [introduce, hp, throw, throwThe, MonadExceptOf.throw]

theorem authorize_of_isAuthenticated (h : c.isAuthenticated = true) (service : Service)
    (auth : ClientAuth) : c.authorize service auth = .error (c.unexpected .clientAuth) := by
  obtain ⟨a, id, hp⟩ := phase_of_isAuthenticated h
  simp [authorize, claimed?, hp, throw, throwThe, MonadExceptOf.throw, bind, Except.bind]

end Client

namespace Relay

variable {r s : Relay} {id : ClientId} {c : Client}

/-- The addresses are the same, and so are inbox and outbox of every client but one. -/
structure SameBut (r s : Relay) (id : ClientId) : Prop where
  slots : ∀ path a, (s.slots path).get a = (r.slots path).get a
  channels : ∀ other, other ≠ id → (s.client? other).map (fun c => (c.inbox, c.outbox)) =
    (r.client? other).map fun c => (c.inbox, c.outbox)

/-- A frame of a client is an initiator's wish to drop a responder, and someone has that address. -/
def Drops (r : Relay) (c : Client) (frame : Bytes) : Prop :=
  c.role? = some .initiator ∧ ∃ responder reason c' victim,
    c.unpack frame = .ok (.dropResponder responder reason, c') ∧
      (r.slots c.path).get responder = some victim

theorem SameBut.refl (r : Relay) (id : ClientId) : r.SameBut r id :=
  ⟨fun _ _ => rfl, fun _ _ => rfl⟩

theorem sameBut_setClient (r : Relay) (id : ClientId) (c : Client) :
    r.SameBut (r.setClient id c) id :=
  ⟨fun _ _ => rfl, fun other hne => by rw [client?_setClient, if_neg (Ne.symm hne)]⟩

/-! ## Each message -/

/-- A message of a client without its address does nothing, unless it drops someone. -/
theorem handle_of_evicted (hc : r.client? id = some c) (hauth : c.isAuthenticated = true)
    (hslot : (r.slots c.path).get c.id ≠ some id) {m : Message}
    (hm : ∀ responder reason, m ≠ .dropResponder responder reason) : (r.handle id c m).2 = r := by
  cases m with
  | clientHello key =>
    simp only [handle, update, hc, Client.introduce_of_isAuthenticated hauth key]
  | clientAuth auth =>
    simp only [handle, handleClientAuth, update, hc,
      Client.authorize_of_isAuthenticated hauth r.service auth]
  | dropResponder responder reason => exact absurd rfl (hm responder reason)
  | raw h frame => simp only [handle, handleRaw, if_neg hslot]
  | _ => rfl

theorem handleDropResponder_of_role (hrole : c.role? ≠ some .initiator) (responder : Address)
    (reason : Option CloseCode) : (r.handleDropResponder c responder reason).2 = r := by
  rcases handleDropResponder_cases r c responder reason with ⟨-, heq⟩ | ⟨-, h, -⟩ | ⟨_, _, -, h, -⟩
  · exact heq
  · exact absurd h hrole
  · exact absurd h hrole

/-- An initiator frees the address, whether or not it has its own. -/
theorem get_handleDropResponder (hauth : c.isAuthenticated = true)
    (hrole : c.role? = some .initiator) (responder : Address) (reason : Option CloseCode)
    (path : PathId) (a : Address) :
    ((r.handleDropResponder c responder reason).2.slots path).get a =
      if c.path = path ∧ a = responder then none else (r.slots path).get a := by
  rw [← get_del]
  rcases handleDropResponder_cases r c responder reason with ⟨h, -⟩ | ⟨-, -, -, heq⟩ |
    ⟨other, f, -, -, -, heq⟩
  · exact absurd ⟨hauth, hrole⟩ h
  · rw [heq]
  · rw [heq]
    rfl

theorem client?_handleDropResponder_of_free {responder : Address}
    (hfree : (r.slots c.path).get responder = none) (reason : Option CloseCode) (other : ClientId) :
    (r.handleDropResponder c responder reason).2.client? other = r.client? other := by
  rcases handleDropResponder_cases r c responder reason with ⟨-, heq⟩ | ⟨-, -, -, heq⟩ |
    ⟨victim, -, -, -, h, -⟩
  · rw [heq]
  · rw [heq]
    rfl
  · cases hfree.symm.trans h

theorem dropResponder_sameBut_iff {c' : Client} {frame : Bytes} {responder : Address}
    {reason : Option CloseCode} (hauth : c.isAuthenticated = true)
    (hu : c.unpack frame = .ok (.dropResponder responder reason, c')) :
    r.SameBut ((r.setClient id c').handleDropResponder c' responder reason).2 id ↔
      ¬ r.Drops c frame := by
  obtain ⟨hphase, hpath⟩ := Client.unpack_phase hu
  have hauth' : c'.isAuthenticated = true := by
    rw [Client.isAuthenticated, hphase]
    exact hauth
  have hrole' : c'.role? = c.role? := by rw [Client.role?, hphase, Client.role?]
  have hsame := sameBut_setClient r id c'
  by_cases hrole : c.role? = some .initiator
  · have hget := get_handleDropResponder (r := r.setClient id c') hauth' (hrole'.trans hrole)
      responder reason
    rw [hpath] at hget
    cases hslot : (r.slots c.path).get responder with
    | none =>
      have hdrops : ¬ r.Drops c frame := by
        rintro ⟨-, responder', reason', c'', victim, h, hvictim⟩
        cases hu.symm.trans h
        cases hslot.symm.trans hvictim
      refine ⟨fun _ => hdrops, fun _ => ⟨fun path a => ?_, fun other hne => ?_⟩⟩
      · rw [hget, hsame.slots]
        split
        · next heq => rw [← heq.1, heq.2, hslot]
        · rfl
      · rw [client?_handleDropResponder_of_free (by rw [hpath]; exact hslot)]
        exact hsame.channels other hne
    | some victim =>
      have hdrops : r.Drops c frame := ⟨hrole, responder, reason, c', victim, hu, hslot⟩
      refine ⟨fun h => ?_, fun h => absurd hdrops h⟩
      -- The address is not free before, and free afterwards.
      have hkept := h.slots c.path responder
      rw [hget, if_pos ⟨rfl, rfl⟩, hslot] at hkept
      cases hkept
  · have hdrops : ¬ r.Drops c frame := fun h => hrole h.1
    rw [handleDropResponder_of_role (hrole' ▸ hrole)]
    exact ⟨fun _ => hdrops, fun _ => hsame⟩

/-! ## Frames -/

/-- A frame that drops someone is not without effect, whoever sends it. -/
theorem not_sameBut_of_drops (hc : r.client? id = some c) (hauth : c.isAuthenticated = true)
    {frame : Bytes} (h : r.Drops c frame) : ¬ r.SameBut (r.received id frame).2 id := by
  have hdrops := h
  obtain ⟨-, responder, reason, c', victim, hu, -⟩ := hdrops
  have hreceived : (r.received id frame).2 =
      ((r.setClient id c').handleDropResponder c' responder reason).2 := by
    simp only [received, hc, hu, handle]
  rw [hreceived, dropResponder_sameBut_iff hauth hu]
  exact not_not_intro h

/-- Any other frame of a client without its address is without effect. -/
theorem sameBut_of_not_drops (hc : r.client? id = some c) (hauth : c.isAuthenticated = true)
    (hslot : (r.slots c.path).get c.id ≠ some id) {frame : Bytes} (h : ¬ r.Drops c frame) :
    r.SameBut (r.received id frame).2 id := by
  cases hu : c.unpack frame with
  | error e =>
    have hreceived : (r.received id frame).2 = r := by simp only [received, hc, hu]
    rw [hreceived]
    exact .refl r id
  | ok result =>
    obtain ⟨m, c'⟩ := result
    obtain ⟨hphase, hpath⟩ := Client.unpack_phase hu
    have hreceived : (r.received id frame).2 = ((r.setClient id c').handle id c' m).2 := by
      simp only [received, hc, hu]
    rw [hreceived]
    by_cases hm : ∃ responder reason, m = .dropResponder responder reason
    · obtain ⟨responder, reason, rfl⟩ := hm
      exact (dropResponder_sameBut_iff hauth hu).mpr h
    · have hc' : (r.setClient id c').client? id = some c' := by
        rw [client?_setClient, if_pos rfl, hc]
        rfl
      have hauth' : c'.isAuthenticated = true := by
        rw [Client.isAuthenticated, hphase]
        exact hauth
      have hslot' : ((r.setClient id c').slots c'.path).get c'.id ≠ some id := by
        rw [hpath, Client.id, hphase]
        exact hslot
      rw [handle_of_evicted hc' hauth' hslot' fun responder reason heq => hm ⟨responder, reason, heq⟩]
      exact sameBut_setClient r id c'

/-- **What is left to a client without its address.** A frame of such a client leaves all addresses and
the channels of all others alone, unless the client is an initiator, the frame is a wish to drop a
responder, and someone has the address that it names. -/
theorem received_sameBut_iff (hc : r.client? id = some c) (hauth : c.isAuthenticated = true)
    (hslot : (r.slots c.path).get c.id ≠ some id) (frame : Bytes) :
    r.SameBut (r.received id frame).2 id ↔ ¬ r.Drops c frame :=
  ⟨fun hsame hdrops => not_sameBut_of_drops hc hauth hdrops hsame,
    sameBut_of_not_drops hc hauth hslot⟩

/-! ## A displaced initiator

An initiator and a responder meet, and the initiator's key holder connects once more. The first of the
initiators has lost its address to the second one, and still drops the responder. -/

namespace Displaced

/-- The key pair of a small secret. -/
def pair (n : UInt8) : KeyPair := .ofSecret ⟨Octets.fit [n]⟩

def service : Service := ⟨["v1.saltyrtc.org"], [pair 6]⟩

def connect : Action :=
  .accept (pair 1).publicKey "v1.saltyrtc.org" ⟨pair 2, ⟨Octets.fit [3]⟩, ⟨0, 0⟩⟩

/-- The proof of an initiator, sealed. -/
def initiatorAuth : Bytes :=
  BigEndian.encode 32 0x04000000000000000000000000000000000000000000000014ba71d007c6db5c ++
  BigEndian.encode 32 0x8a7430b2438838da41e2fe5d2eec8eeabf6dcf8fd1d695262cd53ddfb5aa1b40 ++
  BigEndian.encode 32 0x9db1026f172a7268801eb77fa0f0b034ac3a31c55f438819b06f1449343f801d ++
  BigEndian.encode 32 0xc07dd0ed0dcbfe3c68e7549799f408acec8a72fe76ce2396f461698a48c14361 ++
  BigEndian.encode 5 0xa61f881410

/-- The introduction of a responder. -/
def responderHello : Bytes :=
  BigEndian.encode 32 0x04000000000000000000000000000000000000000000000082a474797065ac63 ++
  BigEndian.encode 32 0x6c69656e742d68656c6c6fa36b6579c4202fe57da347cd62431528daac5fbb29 ++
  BigEndian.encode 17 0x0730fff684afc4cfc2ed90995f58cb3b74

/-- The proof of the responder, sealed. -/
def responderAuth : Bytes :=
  BigEndian.encode 32 0x040000000000000000000000000000000000000000000001fa1e58649c255b3b ++
  BigEndian.encode 32 0x5961232d0bcd5faf85239112cc6bad9a0837c13592d86277930d3665c7464776 ++
  BigEndian.encode 32 0x5f2cf967f4232fc48cc07a2e9426e66745191b4050a4e1806159f9063eadd1b5 ++
  BigEndian.encode 32 0xcd1f63515e7521ed53a49ec13f453e16130e0f52c3b1b46902fc83c8fe8fc1fb ++
  BigEndian.encode 5 0xadea51e19c

/-- The wish of the first initiator to drop whoever has the first responder address, sealed. -/
def drop : Bytes :=
  BigEndian.encode 32 0x040000000000000000000000000000000100000000000001a19130250917f734 ++
  BigEndian.encode 32 0x4abf1d11264c7e630af7f68d6a3a74ebdd2c6fe5ec57bf3b75b6e5bc92d87698 ++
  BigEndian.encode 1 0x0c

def actions : List Action :=
  [connect, .greet ⟨0⟩, .receive ⟨0⟩ initiatorAuth, .answer ⟨0⟩,
    connect, .greet ⟨1⟩, .receive ⟨1⟩ responderHello, .receive ⟨1⟩ responderAuth, .answer ⟨1⟩,
    connect, .greet ⟨2⟩, .receive ⟨2⟩ initiatorAuth, .answer ⟨2⟩]

/-- The relay after the second initiator has come. -/
def relay : Relay := (new service).run actions

/-- A frame of the second initiator to the responder. -/
def reply : Bytes :=
  BigEndian.encode 25 0x0500000000000000000000000000000001020000000000002a

/-- The second initiator writes to the responder and leaves, and what waits for the responder is delivered. -/
def farewell : List Action := [.receive ⟨2⟩ reply, .disconnect ⟨2⟩, .runJob 4]

/-- The first initiator is authenticated and has no address, and its wish names a responder. The responder
has its address, and the second initiator has the other one and a writer. When the second initiator has
left, its frame waits for the responder behind the notice of its coming and in front of that of its leaving,
and then they are delivered. All this is read off at once, since it takes long to get to the relay. -/
theorem evaluated : (relay.client? ⟨0⟩).any (fun c => c.isAuthenticated &&
      c.role? == some .initiator && (relay.slots c.path).get c.id != some ⟨0⟩ &&
      match c.unpack drop with
      | .ok (.dropResponder responder _, _) => ((relay.slots c.path).get responder).isSome
      | _ => false) = true ∧
    (relay.client? ⟨1⟩).any (fun c => c.isAuthenticated && c.role? == some .responder &&
      c.id == ⟨2⟩ && (relay.slots c.path).get c.id == some ⟨1⟩ &&
      (relay.slots c.path).get .initiator == some ⟨2⟩ &&
      (relay.client? ⟨2⟩).any fun peer => peer.outbox.isOpen) = true ∧
    ((relay.run (farewell.take 2)).client? ⟨1⟩).any (fun c => c.inbox ==
      [.notice .newInitiator, .relayed reply, .notice (.disconnected .initiator)]) = true ∧
    ((relay.run farewell).client? ⟨1⟩).any (fun c => c.inbox == [] &&
      c.outbox.items[3]? == some (.binary reply)) = true := by
  decide +kernel

theorem drops : ∃ c, relay.client? ⟨0⟩ = some c ∧ c.isAuthenticated = true ∧
    (relay.slots c.path).get c.id ≠ some ⟨0⟩ ∧ relay.Drops c drop := by
  obtain ⟨c, hc, h⟩ := (Option.any_eq_true _ _).mp evaluated.1
  simp only [Bool.and_eq_true, beq_iff_eq, bne_iff_ne] at h
  obtain ⟨⟨⟨hauth, hrole⟩, hslot⟩, hwish⟩ := h
  split at hwish
  · next responder reason c' hu =>
    obtain ⟨victim, hvictim⟩ := Option.isSome_iff_exists.mp hwish
    exact ⟨c, hc, hauth, hslot, hrole, responder, reason, c', victim, hu, hvictim⟩
  · cases hwish

/-- The responder faces the second initiator. -/
theorem faces : ∃ c peer, relay.client? ⟨1⟩ = some c ∧ c.isAuthenticated = true ∧
    c.role? = some .responder ∧ c.id = ⟨2⟩ ∧ (relay.slots c.path).get c.id = some ⟨1⟩ ∧
    (relay.slots c.path).get .initiator = some ⟨2⟩ ∧ relay.client? ⟨2⟩ = some peer ∧
    peer.outbox.isOpen = true := by
  obtain ⟨c, hc, h⟩ := (Option.any_eq_true _ _).mp evaluated.2.1
  simp only [Bool.and_eq_true, beq_iff_eq] at h
  obtain ⟨⟨⟨⟨⟨hauth, hrole⟩, hid⟩, hslot⟩, hpeer⟩, hwriter⟩ := h
  obtain ⟨peer, hd, hopen⟩ := (Option.any_eq_true _ _).mp hwriter
  exact ⟨c, peer, hc, hauth, hrole, hid, hslot, hpeer, hd, hopen⟩

/-- The frame waits behind a notice, and in front of another one. -/
theorem awaits : ∃ c, (relay.run (farewell.take 2)).client? ⟨1⟩ = some c ∧
    c.inbox = [.notice .newInitiator, .relayed reply, .notice (.disconnected .initiator)] := by
  obtain ⟨c, hc, h⟩ := (Option.any_eq_true _ _).mp evaluated.2.2.1
  exact ⟨c, hc, beq_iff_eq.mp h⟩

/-- The frame is sent behind the notice. -/
theorem delivers : ∃ c, (relay.run farewell).client? ⟨1⟩ = some c ∧ c.inbox = [] ∧
    c.outbox.items[3]? = some (.binary reply) := by
  obtain ⟨c, hc, h⟩ := (Option.any_eq_true _ _).mp evaluated.2.2.2
  rw [Bool.and_eq_true, beq_iff_eq, beq_iff_eq] at h
  exact ⟨c, hc, h⟩

end Displaced

/-- The displaced initiator is one to whom the theorem applies. -/
theorem received_sameBut_iff_displaced : ∃ c, Displaced.relay.client? ⟨0⟩ = some c ∧
    c.isAuthenticated = true ∧ (Displaced.relay.slots c.path).get c.id ≠ some ⟨0⟩ ∧
    (Displaced.relay.SameBut (Displaced.relay.received ⟨0⟩ Displaced.drop).2 ⟨0⟩ ↔
      ¬ Displaced.relay.Drops c Displaced.drop) := by
  obtain ⟨c, hc, hauth, hslot, -⟩ := Displaced.drops
  exact ⟨c, hc, hauth, hslot, received_sameBut_iff hc hauth hslot Displaced.drop⟩

/-- The displaced initiator still acts on its path. -/
theorem displaced_not_sameBut : ∃ c, Displaced.relay.client? ⟨0⟩ = some c ∧
    c.isAuthenticated = true ∧ (Displaced.relay.slots c.path).get c.id ≠ some ⟨0⟩ ∧
    ¬ Displaced.relay.SameBut (Displaced.relay.received ⟨0⟩ Displaced.drop).2 ⟨0⟩ := by
  obtain ⟨c, hc, hauth, hslot, hdrops⟩ := Displaced.drops
  exact ⟨c, hc, hauth, hslot, not_sameBut_of_drops hc hauth hdrops⟩

end Relay

end Rendezvous
