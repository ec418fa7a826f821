import Rendezvous.Proofs.Message.RoundTrip
import Rendezvous.Proofs.Peer

/-!
# Reading and writing are inverse on just the messages that may be sent

Whatever is written for a message is judged by its reader: a message that may be sent comes back, and any
other one is refused for one of its fields. The other way around, whatever a reader accepts, in any form, is a
message that may be sent, and what is written for it is read as the same message again.

For the second part, sizes matter. A message is written only if its lists and texts are not too long, and
a message that was read came in a form that has such a size (`fits_of_read`).

* **`MessageType.valid_of_read`**, **`MessageType.fits_of_read`** — what is accepted may be sent, and can be
  written.
* **`MessageType.opened`** — a payload as its receiver opens it.
* **`Message.codec_exact`** — the codec, in plain and sealed.
-/

namespace Rendezvous

open MessagePack (Record Value)

/-! ## Sizes of values -/

namespace MessagePack.Value

variable {levels : Nat} {v : Value}

theorem length_of_mapM {α β : Type} {f : α → Option β} {as : List α} {bs : List β}
    (h : as.mapM f = some bs) : bs.length = as.length := by
  induction as generalizing bs with
  | nil =>
    cases h
    rfl
  | cons a as ih =>
    rw [List.mapM_cons] at h
    obtain ⟨b, -, h⟩ := Option.bind_eq_some_iff.mp h
    obtain ⟨others, hothers, h⟩ := Option.bind_eq_some_iff.mp h
    cases h
    rw [List.length_cons, List.length_cons, ih hothers]

theorem exists_of_mapM {α β : Type} {f : α → Option β} {as : List α} {bs : List β}
    (h : as.mapM f = some bs) {b : β} (hb : b ∈ bs) : ∃ a ∈ as, f a = some b := by
  induction as generalizing bs with
  | nil =>
    cases h
    cases hb
  | cons a as ih =>
    rw [List.mapM_cons] at h
    obtain ⟨first, hfirst, h⟩ := Option.bind_eq_some_iff.mp h
    obtain ⟨others, hothers, h⟩ := Option.bind_eq_some_iff.mp h
    cases h
    rcases List.mem_cons.mp hb with rfl | hb
    · exact ⟨a, .head _, hfirst⟩
    · obtain ⟨a, ha, hread⟩ := ih hothers hb
      exact ⟨a, .tail _ ha, hread⟩

theorem length_of_toText? {s : String} (hfits : v.Fits levels) (h : v.toText? = some s) :
    (Text.utf8 s).length < 2 ^ 32 := by
  cases hfits with
  | str hsize | bin hsize =>
    rw [← Text.ofUtf8?_eq_some_iff.mp h]
    exact hsize
  | _ => cases h

theorem length_of_toBytes? {data : Bytes} (hfits : v.Fits levels) (h : v.toBytes? = some data) :
    data.length < 2 ^ 32 := by
  cases hfits with
  | bin hsize =>
    cases h
    exact hsize
  | str hsize =>
    obtain ⟨-, heq⟩ := Option.ite_none_left_eq_some.mp h
    cases heq
    exact hsize
  | array hsize =>
    rw [length_of_mapM h]
    exact hsize
  | _ => cases h

theorem length_of_toByteList? {bytes : List UInt8} (hfits : v.Fits levels)
    (h : v.toByteList? = some bytes) : bytes.length < 2 ^ 32 := by
  cases hfits with
  | bin hsize =>
    cases h
    exact hsize
  | array hsize =>
    rw [length_of_mapM h]
    exact hsize
  | _ => cases h

theorem lengths_of_toTexts? {texts : List String} (hfits : v.Fits levels)
    (h : v.toTexts? = some texts) :
    texts.length < 2 ^ 32 ∧ ∀ s ∈ texts, (Text.utf8 s).length < 2 ^ 32 := by
  cases hfits with
  | @bin _ bytes hsize =>
    cases bytes with
    | nil =>
      cases h
      exact ⟨by decide, nofun⟩
    | cons => cases h
  | array hsize hitems =>
    refine ⟨by rwa [length_of_mapM h], fun s hs => ?_⟩
    obtain ⟨item, hitem, hread⟩ := exists_of_mapM h hs
    exact length_of_toText? (hitems item hitem) hread
  | _ => cases h

end MessagePack.Value

/-! ## What is accepted -/

section Accepted

variable {t : MessageType} {m : Message} {signed : Option Bytes} {plain : Bytes}

/-- **What is accepted may be sent.** -/
theorem MessageType.valid_of_read (h : t.read plain = .ok m) : m.Valid := by
  cases t with
  | newResponder =>
    obtain ⟨id, -, h⟩ := bind_eq_ok.mp h
    obtain ⟨address, haddress, rfl⟩ := map_eq_ok.mp h
    exact isResponder_of_acceptResponder haddress
  | dropResponder =>
    obtain ⟨⟨id, code⟩, -, h⟩ := bind_eq_ok.mp h
    obtain ⟨address, haddress, h⟩ := bind_eq_ok.mp h
    have hresponder := isResponder_of_acceptResponder haddress
    dsimp only at h
    split at h
    · rw [pure_eq_ok.mp h]
      exact ⟨hresponder, nofun⟩
    · obtain ⟨reason, hreason, h⟩ := bind_eq_ok.mp h
      rw [pure_eq_ok.mp h]
      obtain ⟨accepted, haccepted, rfl⟩ := map_eq_ok.mp hreason
      refine ⟨hresponder, fun c hc => ?_⟩
      cases hc
      exact (Option.filter_eq_some_iff.mp (accept_eq_ok.mp haccepted)).2
  | disconnected =>
    obtain ⟨id, -, h⟩ := bind_eq_ok.mp h
    obtain ⟨address, haddress, rfl⟩ := map_eq_ok.mp h
    obtain ⟨hne, heq⟩ := Option.ite_none_left_eq_some.mp (accept_eq_ok.mp haddress)
    cases heq
    exact fun hserver => hne (congrArg Address.value hserver)
  | sendError =>
    obtain ⟨id, -, h⟩ := bind_eq_ok.mp h
    obtain ⟨octets, -, rfl⟩ := map_eq_ok.mp h
    trivial
  | _ =>
    obtain ⟨a, -, rfl⟩ := map_eq_ok.mp h
    trivial

theorem ClientAuth.fits_of_read {auth : ClientAuth} (h : ClientAuth.read plain = .ok auth) :
    (Message.clientAuth auth).Fits := by
  obtain ⟨⟨cookie, texts, ping, key⟩, hfields, h⟩ := bind_eq_ok.mp h
  obtain ⟨r, hr, -, hread⟩ := MessageType.readFields_eq_ok.mp hfields
  simp only [Option.bind_eq_bind, Option.bind_eq_some_iff, Option.pure_def, Option.some.injEq,
    Prod.mk.injEq] at hread
  obtain ⟨-, -, found, hfound, -, -, -, -, -, rfl, -⟩ := hread
  obtain ⟨v, levels, hfits, htexts⟩ := Record.fits_of_required? hr hfound
  obtain ⟨accepted, -, h⟩ := bind_eq_ok.mp h
  have hsubprotocols : auth.subprotocols = found := by
    dsimp only at h
    split at h
    · rw [pure_eq_ok.mp h]
    · obtain ⟨key, -, h⟩ := bind_eq_ok.mp h
      rw [pure_eq_ok.mp h]
  show _ ∧ _
  rw [hsubprotocols]
  exact Value.lengths_of_toTexts? hfits htexts

/-- What is accepted as the server's answer can be written, and so can the box in it. -/
theorem ServerAuth.fits_of_read {auth : ServerAuth} (h : ServerAuth.read plain = .ok (auth, signed)) :
    (Message.serverAuth auth).Fits ∧ Message.BoxFits signed := by
  obtain ⟨⟨cookie, box, connected, ids⟩, hfields, h⟩ := bind_eq_ok.mp h
  obtain ⟨r, hr, -, hread⟩ := MessageType.readFields_eq_ok.mp hfields
  simp only [Option.bind_eq_bind, Option.bind_eq_some_iff, Option.pure_def, Option.some.injEq,
    Prod.mk.injEq] at hread
  obtain ⟨-, -, found, hbox, -, -, values, hvalues, -, rfl, -, rfl⟩ := hread
  obtain ⟨accepted, -, h⟩ := bind_eq_ok.mp h
  obtain ⟨side, hside, h⟩ := bind_eq_ok.mp h
  cases pure_eq_ok.mp h
  refine ⟨fun addresses haddresses => ?_, fun content hcontent => ?_⟩
  · have haccepted := MessageType.accept_eq_ok.mp hside
    cases haddresses
    split at haccepted
    · next ids _ =>
      cases haccepted
      obtain ⟨v, levels, hfits, hids⟩ := Record.fits_of_optional? hr hvalues
      rw [List.length_map]
      exact Value.length_of_toByteList? hfits hids
    · cases haccepted
    · cases haccepted
  · subst hcontent
    obtain ⟨v, levels, hfits, hbytes⟩ := Record.fits_of_optional? hr hbox
    exact Value.length_of_toBytes? hfits hbytes

/-- **What is accepted can be written.** -/
theorem MessageType.fits_of_read (h : t.read plain = .ok m) : m.Fits := by
  cases t with
  | clientAuth =>
    obtain ⟨auth, hauth, rfl⟩ := map_eq_ok.mp h
    exact ClientAuth.fits_of_read hauth
  | serverAuth =>
    obtain ⟨⟨auth, signed⟩, hauth, rfl⟩ := map_eq_ok.mp h
    exact (ServerAuth.fits_of_read hauth).1
  | _ =>
    have htype := type?_of_read h
    cases m <;> first | trivial | cases htype

/-- What clients send is read as one of the kinds that are meant for it. -/
theorem Message.exists_of_read (h : Message.read plain = .ok m) :
    ∃ t ∈ MessageType.fromClients, t.read plain = .ok m := by
  obtain ⟨name, -, h⟩ := bind_eq_ok.mp h
  split at h
  · next t ht => exact ⟨t, List.mem_of_find?_eq_some ht, h⟩
  · cases h

end Accepted

/-! ## What is read of what is written -/

/-- The codes that are meant for dropping a responder. -/
theorem CloseCode.isDropReason_iff (c : CloseCode) :
    c.isDropReason = true ↔ c.code ∈ [3001, 3002, 3004, 3005] := by
  cases c <;> decide

namespace Message

variable {t : MessageType} {m : Message} {signed : Option Bytes} {plain : Bytes}

/-- The readers make of a payload in plain just what the message and the box are of which it was made: the
message comes back if it may be sent, and else it is refused for one of its fields. -/
structure ReadExactly (m : Message) (t : MessageType) (signed : Option Bytes) (plain : Bytes) : Prop where
  valid : m.Valid → t.read plain = .ok m
  invalid : ¬ m.Valid → ∃ field, (field = "id" ∨ field = "reason") ∧
    t.read plain = .error (.invalidField t.name field)
  fromClients : t ∈ MessageType.fromClients → Message.read plain = t.read plain
  answer : ∀ auth, m = .serverAuth auth → ServerAuth.read plain = .ok (auth, signed)

theorem field_of_invalid {field : String} (h : m.invalidField? = some field) :
    field = "id" ∨ field = "reason" := by
  unfold invalidField? at h
  split at h
  · split at h <;> cases h
    exact .inl rfl
  · split at h
    · split at h <;> cases h
      exact .inr rfl
    · cases h
      exact .inl rfl
  · split at h <;> cases h
    exact .inl rfl
  · cases h

theorem Conveyed.readExactly (h : m.Conveyed t signed plain) : m.ReadExactly t signed plain where
  valid hvalid := by rw [MessageType.read_conveyed h, judged_of_valid hvalid]
  invalid hinvalid := by
    obtain ⟨field, hfield, hjudged⟩ := judged_of_not_valid hinvalid
    exact ⟨field, field_of_invalid hfield, (MessageType.read_conveyed h).trans hjudged⟩
  fromClients ht := by rw [MessageType.read_conveyed h, read_conveyed h ht]
  answer auth heq := by
    subst heq
    cases h.type
    exact ServerAuth.read_conveyed h

end Message

/-! ## Sealed payloads -/

/-- A payload as its receiver opens it: with the key of the sender, or, if it is a hello, just as it is. -/
def MessageType.opened (t : MessageType) (theirs : PublicKey) (ours : SecretKey) (nonce : Nonce)
    (payload : Bytes) : Except CodecError Bytes :=
  if t.isSealed then Box.decrypt theirs ours nonce payload else .ok payload

/-- What is sealed for a key pair whose keys lead to the same point opens again. -/
theorem Message.exists_payload {t : MessageType} {m : Message} (h : m.type? = some t) {s : Sealing}
    {ours : KeyPair}
    (hkeys : t.isSealed = true → s.peer = some ours.publicKey ∧ ours.Agrees s.session) :
    ∃ payload signed, m.payload s = .ok payload ∧ m.signedKeys s = .ok signed ∧
      t.opened s.session.publicKey ours.secretKey s.nonce payload = .ok (m.plain signed) := by
  have hsealed : m.isSealed = t.isSealed := by rw [isSealed, h]
  obtain ⟨signed, hsigned⟩ : ∃ signed, m.signedKeys s = .ok signed := by
    unfold signedKeys
    split
    · cases h
      rw [(hkeys rfl).1]
      cases s.permanent with
      | none => exact ⟨none, rfl⟩
      | some permanent => exact ⟨_, rfl⟩
    · exact ⟨none, rfl⟩
  cases hcase : t.isSealed with
  | false =>
    rw [hcase] at hsealed
    refine ⟨m.plain signed, signed, ?_, hsigned, ?_⟩
    · exact payload_eq_ok.mpr ⟨signed, hsigned, .inl ⟨hsealed, rfl⟩⟩
    · rw [MessageType.opened, hcase]
      rfl
  | true =>
    obtain ⟨hpeer, hagrees⟩ := hkeys hcase
    rw [hcase] at hsealed
    refine ⟨_, signed, payload_eq_ok.mpr ⟨signed, hsigned, .inr ⟨hsealed, _, hpeer, rfl⟩⟩, hsigned, ?_⟩
    rw [MessageType.opened, if_pos hcase]
    exact Box.decrypt_encrypt s.nonce _ hagrees.symm

/-- **The codec is exact.** Valid are the messages whose responders are named by 2 to 255, whose reasons for
dropping are four codes, and in which not the server is gone. What is written for a message of any kind is
read as just this message if it is valid, and refused for one of its fields if it is not; the same goes for
payloads that are sealed and opened with keys that agree. Whatever is accepted is valid, and is read again
from what is written for it. -/
theorem Message.codec_exact :
    (∀ m : Message, m.Valid ↔ match m with
      | .newResponder id => 2 ≤ id.value.toNat
      | .dropResponder id reason =>
        2 ≤ id.value.toNat ∧ ∀ c, reason = some c → c.code ∈ [3001, 3002, 3004, 3005]
      | .disconnected id => id.value ≠ 0
      | _ => True) ∧
    (∀ (t : MessageType) (m : Message) (signed : Option Bytes), m.type? = some t → m.Fits →
      BoxFits signed → m.ReadExactly t signed (m.plain signed)) ∧
    (∀ (t : MessageType) (m : Message) (s : Sealing) (ours : KeyPair), m.type? = some t → m.Fits →
      (t.isSealed = true → s.peer = some ours.publicKey ∧ ours.Agrees s.session) →
      ∃ payload signed plain, m.payload s = .ok payload ∧ m.signedKeys s = .ok signed ∧
        t.opened s.session.publicKey ours.secretKey s.nonce payload = .ok plain ∧
        m.ReadExactly t signed plain) ∧
    (∀ (t : MessageType) (plain : Bytes) (m : Message), t.read plain = .ok m →
      m.type? = some t ∧ m.Valid ∧ m.Fits ∧
      (∀ signed, BoxFits signed → t.read (m.plain signed) = .ok m) ∧
      ∀ (s : Sealing) (ours : KeyPair),
        (t.isSealed = true → s.peer = some ours.publicKey ∧ ours.Agrees s.session) →
        ∃ payload plain, m.payload s = .ok payload ∧
          t.opened s.session.publicKey ours.secretKey s.nonce payload = .ok plain ∧
          t.read plain = .ok m) ∧
    (∀ (plain : Bytes) (m : Message), Message.read plain = .ok m →
      ∃ t ∈ MessageType.fromClients, t.read plain = .ok m ∧
      ∀ signed, BoxFits signed → Message.read (m.plain signed) = .ok m) ∧
    ∀ (plain : Bytes) (auth : ServerAuth) (signed : Option Bytes),
      ServerAuth.read plain = .ok (auth, signed) →
      MessageType.serverAuth.read plain = .ok (serverAuth auth) ∧ BoxFits signed ∧
      ServerAuth.read ((serverAuth auth).plain signed) = .ok (auth, signed) := by
  refine ⟨fun m => ?_, fun t m signed h hfits hsigned => ?_, fun t m s ours h hfits hkeys => ?_,
    fun t plain m h => ?_, fun plain m h => ?_, fun plain auth signed h => ?_⟩
  · have hresponder : ∀ id : Address, id.isResponder = true ↔ 2 ≤ id.value.toNat := fun id => by
      rw [Address.isResponder, decide_eq_true_eq, UInt8.le_iff_toNat_le]
      rfl
    cases m with
    | newResponder id => exact hresponder id
    | dropResponder id reason =>
      refine and_congr (hresponder id) (forall_congr' fun c => imp_congr_right fun _ => ?_)
      exact c.isDropReason_iff
    | disconnected id =>
      exact ⟨fun hne => Address.value_ne_zero hne, fun hne heq => hne (heq ▸ rfl)⟩
    | _ => exact Iff.rfl
  · exact (conveyed_plain h hfits hsigned).readExactly
  · obtain ⟨payload, signed, hpayload, hsigned, hopened⟩ := exists_payload h hkeys
    exact ⟨payload, signed, m.plain signed, hpayload, hsigned, hopened,
      (conveyed_plain h hfits (length_of_signedKeys hsigned)).readExactly⟩
  · have htype := MessageType.type?_of_read h
    have hvalid := MessageType.valid_of_read h
    have hfits := MessageType.fits_of_read h
    refine ⟨htype, hvalid, hfits,
      fun signed hsigned => MessageType.read_plain htype hvalid hfits hsigned, fun s ours hkeys => ?_⟩
    obtain ⟨payload, signed, hpayload, hsigned, hopened⟩ := exists_payload htype hkeys
    exact ⟨payload, m.plain signed, hpayload, hopened,
      MessageType.read_plain htype hvalid hfits (length_of_signedKeys hsigned)⟩
  · obtain ⟨t, ht, h⟩ := exists_of_read h
    have htype := MessageType.type?_of_read h
    have hvalid := MessageType.valid_of_read h
    have hfits := MessageType.fits_of_read h
    exact ⟨t, ht, h, fun signed hsigned => read_plain htype ht hvalid hfits hsigned⟩
  · obtain ⟨hfits, hsigned⟩ := ServerAuth.fits_of_read h
    exact ⟨map_eq_ok.mpr ⟨(auth, signed), h, rfl⟩, hsigned, ServerAuth.read_plain auth hfits hsigned⟩

end Rendezvous
