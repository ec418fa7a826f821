import Rendezvous.Proofs.Frame
import Rendezvous.Proofs.Client.Steps
import Rendezvous.Proofs.Relay.Confinement

/-!
# What is accepted from a client

The legal frames, told without the order in which they are checked. A frame has a header and at least one
byte behind it. To another client goes what an authenticated client sends, in its own name, to the other side
of its path. To the server goes what the client sends in its own name, with the cookie and the number that
are due and a payload that can be read.

The checks of a client accept these frames and no others, and they are all or nothing. Whatever is accepted
for the server moves on what is due, and nothing else; whatever is refused at whichever check, the last one
included, leaves the whole relay as it was.

* **`Client.Due`** — the cookies and numbers that a client's next frame may carry.
* **`Client.Holds`** — a payload holds a message.
* **`Client.Admits`** — the legal frames, with what is made of them.
* **`Relay.unpacked_run`** — the legal frames are the accepted ones, in every run.
-/

namespace Rendezvous

namespace Client

/-- A header carries what is due. The first one may carry any cookie but the server's, and any number that
has not wrapped. -/
inductive Due (c : Client) (h : Header) : Prop where
  | first (hnone : c.expected = none) (hcookie : h.cookie ≠ c.cookie) (hnumber : h.number.overflow = 0)
  | later {e : Expectation} (hsome : c.expected = some e) (hcookie : h.cookie = e.cookie)
      (hnumber : h.number = e.number) (hlast : e.number.isSentinel = false)

/-- A payload is the introduction of a responder in plain, which comes right after the greeting. -/
def Introduces (c : Client) (payload : Bytes) (key : PublicKey) : Prop :=
  c.stage = .serverHello ∧ c.role? = none ∧ Message.read payload = .ok (.clientHello key)

/-- The payload of a frame holds a message: in plain, if it is an introduction, and else in a box that was
sealed under the frame's first bytes, with the client's own key or, as long as that is not known, with the
one that names its path. -/
inductive Holds (c : Client) (pathKey : PublicKey) (bytes : Bytes) : Message → Prop where
  | plain {key : PublicKey} (h : c.Introduces (bytes.drop 24) key) : Holds c pathKey bytes (.clientHello key)
  | boxed {nonce : Nonce} {plain : Bytes} {m : Message}
      (hother : ∀ key, ¬ c.Introduces (bytes.drop 24) key) (hnonce : nonce.toList = bytes.take 24)
      (hopen : Box.decrypt (c.phase.clientKey?.getD pathKey) c.session.secretKey nonce (bytes.drop 24) =
        .ok plain)
      (hread : Message.read plain = .ok m) : Holds c pathKey bytes m

/-- The legal frames of a client, each with the message that it is and the client after it. -/
inductive Admits (c : Client) (pathKey : PublicKey) (bytes : Bytes) : Message → Client → Prop where
  /-- A frame to the other side of the path, which is not read and does not count. -/
  | relayed {h : Header} {role : Role} (hheader : Header.parse bytes = .ok h)
      (hserver : h.destination ≠ .server) (hauthenticated : c.isAuthenticated = true)
      (hrole : c.role? = some role) (hkind : role.addressKind ≠ h.destination.kind)
      (hsource : h.source = c.id) : Admits c pathKey bytes (.raw h bytes) c
  /-- A frame to the server, after which its cookie and the number after its own are due. -/
  | counted {h : Header} {m : Message} {next : SequenceNumber} (hheader : Header.parse bytes = .ok h)
      (hserver : h.destination = .server) (hsource : h.source = c.id) (hdue : c.Due h)
      (hholds : c.Holds pathKey bytes m) (hnext : next.combined = h.number.combined + 1) :
      Admits c pathKey bytes m { c with expected := some ⟨h.cookie, next⟩ }

variable {c c' : Client} {h : Header} {m : Message} {bytes : Bytes}

/-! ## The checks, one by one -/

theorem mayReach_iff {kind : AddressKind} :
    c.mayReach kind = true ↔
      c.isAuthenticated = true ∧ ∃ role, c.role? = some role ∧ role.addressKind ≠ kind := by
  simp only [mayReach, Bool.and_eq_true, Option.any_eq_true, decide_eq_true_eq]

/-- Headers that are due are accepted, and then their cookie and the number after theirs are due. -/
theorem acceptHeader_iff_due {next : Expectation} :
    c.acceptHeader h = .ok next ↔
      c.Due h ∧ next.cookie = h.cookie ∧ next.number.combined = h.number.combined + 1 := by
  rw [acceptHeader_eq_ok]
  constructor
  · rintro ⟨hcookie, hnext, hfirst | hlater⟩
    · obtain ⟨hnone, hother, hoverflow⟩ := hfirst
      exact ⟨.first hnone hother hoverflow, hcookie, SequenceNumber.combined_of_next hnext⟩
    · have hlast := SequenceNumber.isSentinel_of_next hnext
      exact ⟨.later hlater rfl rfl hlast, hcookie, SequenceNumber.combined_of_next hnext⟩
  · rintro ⟨hdue, hcookie, hcombined⟩
    -- A number that is due is never the last one, so it has a successor, which is known by its value.
    have hsentinel : h.number.isSentinel = false := by
      cases hdue with
      | first _ _ hnumber =>
        have hlow := SequenceNumber.combined_of_overflow hnumber
        rw [← Bool.not_eq_true, SequenceNumber.isSentinel_iff]
        omega
      | later _ _ hnumber hlast => exact hnumber ▸ hlast
    obtain ⟨number, hnext⟩ := SequenceNumber.next_eq_ok hsentinel
    have heq : number = next.number := SequenceNumber.combined_inj.mp
      ((SequenceNumber.combined_of_next hnext).trans hcombined.symm)
    refine ⟨hcookie, heq ▸ hnext, ?_⟩
    cases hdue with
    | first hnone hother hnumber => exact .inl ⟨hnone, hother, hnumber⟩
    | later hsome hcookie hnumber _ => exact .inr (by rw [hsome, hcookie, hnumber])

theorem phase_eq_greeted_iff : c.phase = .greeted ↔ c.stage = .serverHello ∧ c.role? = none := by
  unfold stage role?
  cases c.phase <;> simp [Phase.stage, Phase.role?, Phase.admission?]

/-- A payload is opened if it holds a message. -/
theorem openPayload_iff_holds {f : Frame} (hparse : Frame.parse bytes = .ok f) :
    c.openPayload f = .ok m ↔ c.Holds c.initiatorKey bytes m := by
  obtain ⟨-, hheader, hpayload⟩ := Frame.parse_eq_ok.mp hparse
  have hnonce := Header.nonce_of_parse hheader
  by_cases hintroduces : ∃ key, c.Introduces (bytes.drop 24) key
  · obtain ⟨key, hkey⟩ := hintroduces
    have hopened : c.openPayload f = .ok (.clientHello key) := by
      obtain ⟨hstage, hrole, hread⟩ := hkey
      unfold openPayload
      rw [phase_eq_greeted_iff.mpr ⟨hstage, hrole⟩, hpayload, hread]
    rw [hopened]
    constructor
    · intro heq
      cases heq
      exact .plain hkey
    · intro hholds
      cases hholds with
      | plain hkey' => rw [Message.clientHello.inj (Except.ok.inj (hkey.2.2.symm.trans hkey'.2.2))]
      | boxed hother => exact absurd hkey (hother key)
  · have hother : ∀ key, ¬ c.Introduces (bytes.drop 24) key := fun key hkey => hintroduces ⟨key, hkey⟩
    have hopened : c.openPayload f = c.openSealed f := by
      unfold openPayload
      split
      · next key hphase hread =>
        obtain ⟨hstage, hrole⟩ := phase_eq_greeted_iff.mp hphase
        exact absurd ⟨hstage, hrole, hpayload ▸ hread⟩ (hother key)
      · rfl
    rw [hopened, openSealed_eq_ok, hpayload]
    constructor
    · rintro ⟨plain, hopen, hread⟩
      exact .boxed hother hnonce hopen hread
    · intro hholds
      cases hholds with
      | plain hkey => exact absurd hkey (hother _)
      | boxed _ hnonce' hopen hread =>
        cases Octets.ext_toList (hnonce'.trans hnonce.symm)
        exact ⟨_, hopen, hread⟩

/-- **The legal frames are accepted, and no others**, with just what is to be made of them. -/
theorem unpack_iff_admits :
    c.unpack bytes = .ok (m, c') ↔ 25 ≤ bytes.length ∧ c.Admits c.initiatorKey bytes m c' := by
  rw [unpack_eq_ok]
  constructor
  · rintro ⟨f, hparse, hsource, hcases⟩
    obtain ⟨hlength, hheader, -⟩ := Frame.parse_eq_ok.mp hparse
    refine ⟨hlength, ?_⟩
    rcases hcases with ⟨hserver, next, haccept, hopened, rfl⟩ | ⟨hserver, hreach, rfl, rfl⟩
    · obtain ⟨hdue, hcookie, hcombined⟩ := acceptHeader_iff_due.mp haccept
      have hholds := (openPayload_iff_holds hparse).mp hopened
      obtain ⟨cookie, number⟩ := next
      cases hcookie
      exact .counted hheader hserver hsource hdue hholds hcombined
    · obtain ⟨hauthenticated, role, hrole, hkind⟩ := mayReach_iff.mp hreach
      exact .relayed hheader hserver hauthenticated hrole hkind hsource
  · rintro ⟨hlength, hadmits⟩
    cases hadmits with
    | @relayed h role hheader hserver hauthenticated hrole hkind hsource =>
      have hreach := mayReach_iff.mpr ⟨hauthenticated, role, hrole, hkind⟩
      exact ⟨⟨h, bytes.drop 24⟩, Frame.parse_eq_ok.mpr ⟨hlength, hheader, rfl⟩, hsource,
        .inr ⟨hserver, hreach, rfl, rfl⟩⟩
    | @counted h m next hheader hserver hsource hdue hholds hnext =>
      have hparse : Frame.parse bytes = .ok ⟨h, bytes.drop 24⟩ :=
        Frame.parse_eq_ok.mpr ⟨hlength, hheader, rfl⟩
      have haccept : c.acceptHeader h = .ok ⟨h.cookie, next⟩ :=
        acceptHeader_iff_due.mpr ⟨hdue, rfl, hnext⟩
      exact ⟨⟨h, bytes.drop 24⟩, hparse, hsource,
        .inl ⟨hserver, _, haccept, (openPayload_iff_holds hparse).mpr hholds, rfl⟩⟩

end Client

/-! ## Runs -/

namespace Relay

variable {r : Relay} {id : ClientId} {c c' : Client} {m : Message} {bytes : Bytes} {e : ProtocolError}

/-- **A frame that is refused leaves no trace**, be it handled or only read. -/
theorem unchanged_of_refused (hc : r.client? id = some c) (h : c.unpack bytes = .error e) :
    r.received id bytes = (.error e, r) ∧ r.perform (.unpack id bytes) = r := by
  constructor
  · unfold received
    rw [hc]
    simp only [h]
  · show (r.update id fun c => Prod.snd <$> c.unpack bytes).2 = r
    unfold update
    rw [hc]
    simp only [h]
    rfl

/-- A frame that is read leaves the client that its reading gives. -/
theorem perform_unpack (hc : r.client? id = some c) (h : c.unpack bytes = .ok (m, c')) :
    r.perform (.unpack id bytes) = r.setClient id c' := by
  show (r.update id fun c => Prod.snd <$> c.unpack bytes).2 = r.setClient id c'
  unfold update
  rw [hc]
  simp only [h]
  rfl

/-- **Exactly the legal frames are accepted, wholly or not at all.** In every run each client has a path, and
a frame from it is accepted if it has at least 25 bytes and is legal under the key of this path; then the
message and the client after it are those that the frame stands for, and reading the frame leaves this client
and else nothing new. Any other frame leaves the relay as it was. -/
theorem unpacked_run (service : Service) (actions : List Action) :
    (∀ id c, ((new service).run actions).client? id = some c →
      ∃ p, ((new service).run actions).registry.path? c.path = some p ∧
        ∀ bytes m c', c.unpack bytes = .ok (m, c') ↔
          25 ≤ bytes.length ∧ c.Admits p.key bytes m c') ∧
    (∀ id c bytes m c', ((new service).run actions).client? id = some c →
      c.unpack bytes = .ok (m, c') →
      ((new service).run actions).perform (.unpack id bytes) =
        ((new service).run actions).setClient id c') ∧
    ∀ id c bytes e, ((new service).run actions).client? id = some c → c.unpack bytes = .error e →
      ((new service).run actions).received id bytes = (.error e, (new service).run actions) ∧
      ((new service).run actions).perform (.unpack id bytes) = (new service).run actions := by
  refine ⟨fun id c hc => ?_, fun id c bytes m c' hc h => perform_unpack hc h,
    fun id c bytes e hc h => unchanged_of_refused hc h⟩
  obtain ⟨p, hp, hkey⟩ := hasPath_of_coherent (coherent_run service actions) hc
  refine ⟨p, hp, fun bytes m c' => ?_⟩
  rw [hkey]
  exact Client.unpack_iff_admits

end Relay

end Rendezvous
