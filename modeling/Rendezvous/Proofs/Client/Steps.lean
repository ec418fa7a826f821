import Rendezvous.Client.Handshake
import Rendezvous.Proofs.Message.Reading

/-!
# What a client's operations do

One characterisation for each operation of a client that may fail: when it succeeds, and with which
client. Proofs about relays cite these and do not open the operations.
-/

namespace Rendezvous

theorem Service.mem_of_keyFor {s : Service} {expected : PublicKey} {pair : KeyPair}
    (h : s.keyFor (some expected) = .ok pair) :
    pair ∈ s.permanentKeys ∧ pair.publicKey.samePoint expected = true := by
  unfold keyFor findKey? at h
  dsimp only at h
  cases hfind : s.permanentKeys.find? fun pair => pair.publicKey.samePoint expected with
  | none =>
    rw [hfind] at h
    cases h
  | some found =>
    rw [hfind] at h
    cases h
    have hsame := List.find?_some hfind
    exact ⟨List.mem_of_find?_eq_some hfind, hsame⟩

namespace Client

/-! ## Frames to the client -/

/-- Packing takes a sequence number, and changes nothing else about the client. -/
theorem pack_eq_ok {c c' : Client} {destination : Address} {m : Message} {frame : Bytes} :
    c.pack destination m = .ok (frame, c') ↔
      c.nextNumber.isSentinel = false ∧ ∃ header payload next,
        (c.nextHeader destination).toOctets = .ok header ∧
        m.payload (c.sealing header) = .ok payload ∧ c.nextNumber.next = .ok next ∧
        frame = header.toList ++ payload ∧ c' = { c with nextNumber := next } := by
  unfold pack
  simp only [guard_eq_ok, bind_eq_ok, ofCodec_eq_ok, pure_eq_ok, Prod.mk.injEq, Bool.not_eq_true]
  constructor
  · rintro ⟨hs, header, hheader, payload, hpayload, next, hnext, rfl, rfl⟩
    exact ⟨hs, header, payload, next, hheader, hpayload, hnext, rfl, rfl⟩
  · rintro ⟨hs, header, payload, next, hheader, hpayload, hnext, rfl, rfl⟩
    exact ⟨hs, header, hheader, payload, hpayload, next, hnext, rfl, rfl⟩

theorem eq_of_pack {c c' : Client} {destination : Address} {m : Message} {frame : Bytes}
    (h : c.pack destination m = .ok (frame, c')) :
    ∃ next, c.nextNumber.next = .ok next ∧ c' = { c with nextNumber := next } := by
  obtain ⟨-, header, payload, next, -, -, hnext, -, rfl⟩ := pack_eq_ok.mp h
  exact ⟨next, hnext, rfl⟩

theorem send_eq_ok {c c' : Client} {m : Message} :
    c.send m = .ok c' ↔ c.isAuthenticated = true ∧
      ∃ frame c₁, c.pack c.id m = .ok (frame, c₁) ∧ c' = c₁.push (.binary frame) := by
  unfold send
  simp only [guard_eq_ok, bind_eq_ok, pure_eq_ok, Prod.exists, Decidable.not_not]

/-! ## Frames from the client -/

/-- The first frame fixes the cookie, which is not the server's, and starts with a number that has
not wrapped; each further frame has to carry what the one before it announced. -/
theorem acceptHeader_eq_ok {c : Client} {h : Header} {next : Expectation} :
    c.acceptHeader h = .ok next ↔
      next.cookie = h.cookie ∧ h.number.next = .ok next.number ∧
      ((c.expected = none ∧ h.cookie ≠ c.cookie ∧ h.number.overflow = 0) ∨
        c.expected = some ⟨h.cookie, h.number⟩) := by
  unfold acceptHeader
  split
  · next hnone =>
    simp only [guard_eq_ok, bind_eq_ok, ofCodec_eq_ok, pure_eq_ok, hnone]
    constructor
    · rintro ⟨hcookie, hoverflow, number, hnumber, rfl⟩
      exact ⟨rfl, hnumber, .inl ⟨trivial, hcookie, Decidable.not_not.mp hoverflow⟩⟩
    · rintro ⟨hc, hnumber, ⟨-, hcookie, hoverflow⟩ | h⟩
      · exact ⟨hcookie, Decidable.not_not.mpr hoverflow, next.number, hnumber, by rw [← hc]⟩
      · cases h
  · next e hsome =>
    simp only [guard_eq_ok, bind_eq_ok, ofCodec_eq_ok, pure_eq_ok, hsome]
    constructor
    · rintro ⟨hcookie, -, hnumber, number, hnext, rfl⟩
      have hcookie := Decidable.not_not.mp hcookie
      have hnumber := Decidable.not_not.mp hnumber
      exact ⟨hcookie.symm, by rw [hnumber]; exact hnext, .inr (by rw [hcookie, hnumber])⟩
    · rintro ⟨hc, hnext, ⟨h, -⟩ | h⟩
      · cases h
      · cases h
        -- A number with a successor is not the sentinel.
        have hs : ¬ h.number.isSentinel = true := by
          intro hs
          rw [SequenceNumber.next_sentinel hs] at hnext
          cases hnext
        exact ⟨by simp, hs, by simp, next.number, hnext, by rw [← hc]⟩

/-- **What is accepted.** A frame of the client's own address, which either is for the server, and
then has an acceptable header and a readable payload and counts, or is for the other side of the
path, and then is not looked at any further. -/
theorem unpack_eq_ok {c c' : Client} {bytes : Bytes} {m : Message} :
    c.unpack bytes = .ok (m, c') ↔ ∃ f, Frame.parse bytes = .ok f ∧ f.header.source = c.id ∧
      ((f.header.destination = .server ∧ ∃ next, c.acceptHeader f.header = .ok next ∧
          c.openPayload f = .ok m ∧ c' = { c with expected := some next }) ∨
        (f.header.destination ≠ .server ∧ c.mayReach f.header.destination.kind = true ∧
          m = .raw f.header bytes ∧ c' = c)) := by
  unfold unpack
  simp only [bind_eq_ok, guard_eq_ok, ofCodec_eq_ok]
  refine exists_congr fun f => and_congr_right fun _ => ?_
  by_cases hd : f.header.destination = .server
  · simp only [hd, not_true_eq_false, false_and, not_false_eq_true, true_and, if_true, bind_eq_ok,
      pure_eq_ok, Prod.mk.injEq, ne_eq, Decidable.not_not, or_false]
    refine and_congr_right fun _ => exists_congr fun next => and_congr_right fun _ => ?_
    constructor
    · rintro ⟨m', hm, rfl, rfl⟩
      exact ⟨hm, rfl⟩
    · rintro ⟨hm, rfl⟩
      exact ⟨m, hm, rfl, rfl⟩
  · simp only [hd, not_false_eq_true, true_and, if_false, pure_eq_ok, Prod.mk.injEq, ne_eq,
      Decidable.not_not, false_and, false_or]
    constructor
    · rintro ⟨hr, hs, rfl, rfl⟩
      exact ⟨hs, hr, rfl, rfl⟩
    · rintro ⟨hs, hr, rfl, rfl⟩
      exact ⟨hr, hs, rfl, rfl⟩

theorem openSealed_eq_ok {c : Client} {f : Frame} {m : Message} :
    c.openSealed f = .ok m ↔ ∃ plain,
      Box.decrypt c.peerKey c.session.secretKey f.header.nonce f.payload = .ok plain ∧
      Message.read plain = .ok m := by
  unfold openSealed
  simp only [bind_eq_ok, ofCodec_eq_ok]

/-- Only an introduction right after the greeting is not sealed. -/
theorem openPayload_cases {c : Client} {f : Frame} {m : Message} (h : c.openPayload f = .ok m) :
    (c.phase = .greeted ∧ ∃ key, m = .clientHello key) ∨ c.openSealed f = .ok m := by
  unfold openPayload at h
  split at h
  · next key hphase _ =>
    cases h
    exact .inl ⟨hphase, key, rfl⟩
  · exact .inr h

/-- The frame to the server in a byte string, if it is one that the client accepts. -/
def accepts? (c : Client) (bytes : Bytes) : Option Frame :=
  match Frame.parse bytes, c.unpack bytes with
  | .ok f, .ok _ => if f.header.destination = .server then some f else none
  | _, _ => none

theorem accepts?_eq_some {c : Client} {bytes : Bytes} {f : Frame} :
    c.accepts? bytes = some f ↔ Frame.parse bytes = .ok f ∧ f.header.destination = .server ∧
      ∃ m c', c.unpack bytes = .ok (m, c') := by
  unfold accepts?
  cases hp : Frame.parse bytes with
  | error e => simp
  | ok g =>
    cases hu : c.unpack bytes with
    | error e => simp
    | ok result =>
      simp only [Except.ok.injEq]
      constructor
      · intro h
        split at h
        · next hserver =>
          cases h
          exact ⟨rfl, hserver, result.1, result.2, rfl⟩
        · cases h
      · rintro ⟨rfl, hserver, -⟩
        exact if_pos hserver

/-- A frame that was read either was accepted by the server and counts, or leaves the client as it
was. -/
theorem unpack_cases {c c' : Client} {bytes : Bytes} {m : Message}
    (h : c.unpack bytes = .ok (m, c')) :
    (c.accepts? bytes = none ∧ c' = c) ∨
    (∃ f next, c.accepts? bytes = some f ∧ c.acceptHeader f.header = .ok next ∧
      c' = { c with expected := some next }) := by
  obtain ⟨f, hparse, -, ⟨hserver, next, haccept, -, rfl⟩ | ⟨hserver, -, -, rfl⟩⟩ :=
    unpack_eq_ok.mp h
  · exact .inr ⟨f, next, accepts?_eq_some.mpr ⟨hparse, hserver, _, _, h⟩, haccept, rfl⟩
  · refine .inl ⟨Option.eq_none_iff_forall_ne_some.mpr fun g hg => ?_, rfl⟩
    obtain ⟨hparse', hserver', -⟩ := accepts?_eq_some.mp hg
    cases hparse.symm.trans hparse'
    exact hserver hserver'

/-- What a client is in the protocol does not depend on the frames that were read. -/
theorem unpack_phase {c c' : Client} {bytes : Bytes} {m : Message} (h : c.unpack bytes = .ok (m, c')) :
    c'.phase = c.phase ∧ c'.path = c.path := by
  rcases unpack_cases h with ⟨-, rfl⟩ | ⟨f, next, -, -, rfl⟩
  · exact ⟨rfl, rfl⟩
  · exact ⟨rfl, rfl⟩

/-- Nobody but responders can be named to be dropped. -/
theorem isResponder_of_unpack {c c' : Client} {bytes : Bytes} {responder : Address}
    {reason : Option CloseCode} (h : c.unpack bytes = .ok (.dropResponder responder reason, c')) :
    responder.isResponder = true := by
  obtain ⟨f, -, -, ⟨-, next, -, hopened, -⟩ | ⟨-, -, hraw, -⟩⟩ := unpack_eq_ok.mp h
  · rcases openPayload_cases hopened with ⟨-, key, hhello⟩ | hsealed
    · cases hhello
    · obtain ⟨plain, -, hread⟩ := openSealed_eq_ok.mp hsealed
      exact Message.isResponder_of_read hread
  · cases hraw

/-! ## Steps of the handshake -/

theorem greet_eq_ok {c c' : Client} :
    c.greet = .ok c' ↔ c.phase = .fresh ∧ ∃ frame c₁,
      c.pack .server (.serverHello c.session.publicKey) = .ok (frame, c₁) ∧
      c' = { c₁ with phase := .greeted }.push (.binary frame) := by
  unfold greet
  cases hp : c.phase with
  | fresh =>
    simp only [bind_eq_ok, pure_eq_ok, Prod.exists, true_and]
  | _ => simp [throw, throwThe, MonadExceptOf.throw]

theorem introduce_eq_ok {c c' : Client} {key : PublicKey} :
    c.introduce key = .ok c' ↔ c.phase = .greeted ∧ c' = { c with phase := .introduced key } := by
  unfold introduce
  cases hp : c.phase with
  | greeted => simp only [pure_eq_ok, true_and]
  | _ => simp [throw, throwThe, MonadExceptOf.throw]

/-- Who introduced itself claims to be a responder, and who did not the initiator. -/
theorem claimed?_eq_some {c : Client} {role : Role} {key : PublicKey} :
    c.claimed? = some (role, key) ↔
      (c.phase = .greeted ∧ role = .initiator ∧ key = c.initiatorKey) ∨
      (c.phase = .introduced key ∧ role = .responder) := by
  unfold claimed?
  cases hphase : c.phase with
  | greeted => simp [eq_comm]
  | introduced own => simp [and_comm, eq_comm]
  | _ => simp

theorem phase_of_claimed {c : Client} {role : Role} {key : PublicKey}
    (h : c.claimed? = some (role, key)) : c.phase ≠ .fresh ∧ c.isAuthenticated = false := by
  unfold isAuthenticated
  rcases claimed?_eq_some.mp h with ⟨hphase, -, -⟩ | ⟨hphase, -⟩
  · rw [hphase]
    exact ⟨by simp, rfl⟩
  · rw [hphase]
    exact ⟨by simp, rfl⟩

theorem authorize_eq_ok {c c' : Client} {service : Service} {auth : ClientAuth} :
    c.authorize service auth = .ok c' ↔ ∃ role key permanent, c.claimed? = some (role, key) ∧
      auth.yourCookie = c.cookie ∧
      auth.subprotocols.find? service.speaks = some c.subprotocol ∧
      service.keyFor auth.yourKey = .ok permanent ∧
      c' = { c with phase := .admitted ⟨role, key, permanent, auth.pingInterval⟩ } := by
  unfold authorize
  cases hc : c.claimed? with
  | none => simp [throw, throwThe, MonadExceptOf.throw, bind, Except.bind]
  | some claim =>
    obtain ⟨role, key⟩ := claim
    simp only [guard_eq_ok, bind_eq_ok, pure_eq_ok, ne_eq, Decidable.not_not]
    constructor
    · rintro ⟨claim, rfl, hcookie, hsub, permanent, hkey, rfl⟩
      exact ⟨role, key, permanent, rfl, hcookie, hsub, hkey, rfl⟩
    · rintro ⟨role', key', permanent, h, hcookie, hsub, hkey, rfl⟩
      cases h
      exact ⟨(role, key), rfl, hcookie, hsub, permanent, hkey, rfl⟩

end Client

end Rendezvous
