import Rendezvous.Message.Writing
import Rendezvous.Proofs.MessagePack.Presentation
import Rendezvous.Proofs.Message.Reading

/-!
# Messages that were written

The payload of a message names its kind, and has the fields of that kind in their order. So each message
with acceptable addresses and reasons is read back from its payload.

What is read depends on what the fields say, and not on how they say it. So reading is followed for any
payload that conveys the message, of which the one that is written is the first example.

* **`Message.Valid`**, **`Message.Fits`** — the messages that may be sent, and whose lists and texts are not
  too long to be written.
* **`Message.Conveyed`** — a payload conveys a message.
* **`MessageType.read_conveyed`** — the message is what is read, or the first field of it that is not
  acceptable is named as the fault.
* **`MessageType.read_plain`**, **`ServerAuth.read_plain`** — what was written is read back, the server's
  answer together with the box in it.
-/

namespace Rendezvous

open MessagePack (Record Value)

theorem Address.value_ne_zero {a : Address} (h : a ≠ .server) : a.value ≠ 0 := by
  intro heq
  apply h
  cases a
  simp_all [Address.server]

/-! ## Payloads -/

namespace Message

variable {m : Message} {t : MessageType} {signed : Option Bytes}

/-- The messages that may be sent: responders and those who left are named by addresses that they can
have, and reasons for dropping a responder by codes that are meant for it. -/
def Valid : Message → Prop
  | .newResponder id => id.isResponder = true
  | .dropResponder id reason =>
    id.isResponder = true ∧ ∀ code, reason = some code → code.isDropReason = true
  | .disconnected id => id ≠ .server
  | _ => True

/-- The messages whose lists and texts are not too long to be written. -/
def Fits : Message → Prop
  | .clientAuth auth => auth.subprotocols.length < 2 ^ 32 ∧
    ∀ subprotocol ∈ auth.subprotocols, (Text.utf8 subprotocol).length < 2 ^ 32
  | .serverAuth auth => ∀ addresses, auth.otherSide = .responders addresses →
    addresses.length < 2 ^ 32
  | _ => True

/-- The box in a message, if there is one, is not too long to be written. -/
def BoxFits (signed : Option Bytes) : Prop :=
  ∀ box, signed = some box → box.length < 2 ^ 32

theorem boxFits_none : BoxFits none :=
  nofun

theorem plain_eq (h : m.type? = some t) :
    m.plain signed = Record.write (("type", .ofText t.name) :: m.fields signed) := by
  cases m <;> cases h <;> rfl

theorem plain_ne_nil (h : m.type? = some t) : m.plain signed ≠ [] := by
  rw [plain_eq h]
  exact Record.write_ne_nil _

/-- The fields of a payload are those of its kind, in their order. -/
theorem fields_sublist (h : m.type? = some t) :
    ((("type", Value.ofText t.name) :: m.fields signed).map Prod.fst).Sublist t.fields := by
  cases m with
  | clientAuth auth =>
    cases h
    obtain ⟨cookie, subprotocols, ping, key⟩ := auth
    cases key <;> simp [fields, MessageType.fields]
  | serverAuth auth =>
    cases h
    obtain ⟨cookie, side⟩ := auth
    cases signed <;> cases side <;> simp [fields, MessageType.fields]
  | dropResponder id reason =>
    cases h
    cases reason <;> simp [fields, MessageType.fields]
  | _ => cases h <;> simp [fields, MessageType.fields]

theorem fits_field {name : String} {v : Value} (hfits : m.Fits)
    (hsigned : BoxFits signed) (h : (name, v) ∈ m.fields signed) :
    v.Fits 1022 := by
  have hbin : ∀ {n : Nat} {octets : Octets n}, n < 2 ^ 32 → (Value.bin octets.toList).Fits 1022 :=
    fun {_ octets} hn => .bin (by rwa [octets.length_toList])
  have hbyte : ∀ {levels : Nat} (b : UInt8), (Value.unsigned b.toNat).Fits levels := fun b => by
    have := b.toNat_lt
    exact .unsigned (by omega)
  cases m with
  | serverHello key | clientHello key | sendError id =>
    cases List.mem_singleton.mp h
    exact hbin (by decide)
  | newResponder id | disconnected id =>
    cases List.mem_singleton.mp h
    exact hbyte id.value
  | newInitiator => cases h
  | raw header frame => cases h
  | dropResponder id reason =>
    rcases List.mem_cons.mp h with heq | h
    · cases heq
      exact hbyte id.value
    · cases reason with
      | none => cases h
      | some code =>
        cases List.mem_singleton.mp h
        have := code.code.toNat_lt
        exact .unsigned (by omega)
  | clientAuth auth =>
    obtain ⟨cookie, subprotocols, ping, key⟩ := auth
    obtain ⟨hlength, htexts⟩ := hfits
    rcases List.mem_append.mp h with h | h
    · simp only [List.mem_cons, List.not_mem_nil, or_false, Prod.mk.injEq] at h
      rcases h with ⟨-, rfl⟩ | ⟨-, rfl⟩ | ⟨-, rfl⟩
      · exact hbin (by decide)
      · refine .array ?_ fun v hv => ?_
        · rw [List.length_map]
          exact hlength
        · obtain ⟨s, hs, rfl⟩ := List.mem_map.mp hv
          exact .str (htexts s hs)
      · have := ping.toNat_lt
        exact .unsigned (by omega)
    · cases key with
      | none => cases h
      | some key =>
        cases List.mem_singleton.mp h
        exact hbin (by decide)
  | serverAuth auth =>
    obtain ⟨cookie, side⟩ := auth
    rcases List.mem_append.mp h with h | h
    · rcases List.mem_cons.mp h with heq | h
      · cases heq
        exact hbin (by decide)
      · cases signed with
        | none => cases h
        | some box =>
          cases List.mem_singleton.mp h
          exact .bin (hsigned box rfl)
    · cases side with
      | initiator connected =>
        cases List.mem_singleton.mp h
        exact .bool connected
      | responders addresses =>
        cases List.mem_singleton.mp h
        refine .array ?_ fun v hv => ?_
        · rw [List.length_map]
          exact hfits addresses rfl
        · obtain ⟨a, -, rfl⟩ := List.mem_map.mp hv
          exact hbyte a.value

theorem fits_plain (h : m.type? = some t) (hfits : m.Fits)
    (hsigned : BoxFits signed) :
    (Record.toValue (("type", .ofText t.name) :: m.fields signed)).Fits MessagePack.maxLevels := by
  have hsublist : ((("type", .ofText t.name) :: m.fields signed).map Prod.fst).Sublist t.fields :=
    fields_sublist h
  have hlength : t.fields.length < 2 ^ 32 := by cases t <;> decide
  have hnames : ∀ name ∈ t.fields, (Text.utf8 name).length < 2 ^ 32 := by cases t <;> decide
  have htype : (Text.utf8 t.name).length < 2 ^ 32 := by cases t <;> decide
  refine Record.fits ?_ (fun field hfield => ?_) fun field hfield => ?_
  · have hle := hsublist.length_le
    rw [List.length_map] at hle
    omega
  · exact hnames _ (hsublist.subset (List.mem_map_of_mem hfield))
  · rcases List.mem_cons.mp hfield with rfl | hfield
    · exact .str htype
    · exact fits_field hfits hsigned hfield

/-- Whoever knows some of the names reads the fields with these names. -/
theorem read?_plain (h : m.type? = some t) (hfits : m.Fits)
    (hsigned : BoxFits signed) (names : List String) :
    Record.read? names (m.plain signed) =
      some ((("type", .ofText t.name) :: m.fields signed).filter fun field => field.1 ∈ names) := by
  have hnodup : t.fields.Nodup := by cases t <;> decide
  have hwritten := Record.read?_write (fits_plain h hfits hsigned)
    (hnodup.sublist (fields_sublist h)) names []
  rw [List.append_nil, ← plain_eq h] at hwritten
  exact hwritten

/-! ## Conveying -/

/-- A payload conveys a message and the box in it: it names the message's kind, and its fields say what the
message's fields say. -/
structure Conveyed (m : Message) (t : MessageType) (signed : Option Bytes) (plain : Bytes) : Prop where
  type : m.type? = some t
  kind : ∃ w, Record.read? ["type"] plain = some w ∧ Record.Says w [("type", .ofText t.name)]
  fields : ∃ w, Record.read? t.fields plain = some w ∧
    Record.Says w (("type", .ofText t.name) :: m.fields signed)

/-- No other field has the name of the field that gives the kind. -/
theorem filter_type {r : Record} {v : Value} (h : ((("type", v) :: r).map Prod.fst).Nodup) :
    (("type", v) :: r).filter (fun field => field.1 ∈ ["type"]) = [("type", v)] := by
  have hothers : r.filter (fun field => field.1 ∈ ["type"]) = [] :=
    List.filter_eq_nil_iff.mpr fun field hfield heq => (List.nodup_cons.mp h).1
      (List.mem_map.mpr ⟨field, hfield, List.mem_singleton.mp (of_decide_eq_true heq)⟩)
  rw [List.filter_cons, if_pos (decide_eq_true (.head _)), hothers]

/-- Whoever knows all names of a kind knows all fields. -/
theorem filter_fields {r : Record} {names : List String} (h : (r.map Prod.fst).Sublist names) :
    r.filter (fun field => field.1 ∈ names) = r :=
  List.filter_eq_self.mpr fun _ hfield => decide_eq_true (h.subset (List.mem_map_of_mem hfield))

/-- What was written conveys the message. -/
theorem conveyed_plain (h : m.type? = some t) (hfits : m.Fits) (hsigned : BoxFits signed) :
    m.Conveyed t signed (m.plain signed) := by
  have hsublist : ((("type", .ofText t.name) :: m.fields signed).map Prod.fst).Sublist t.fields :=
    fields_sublist h
  have hnodup : t.fields.Nodup := by cases t <;> decide
  have hread := read?_plain h hfits hsigned
  refine ⟨h, ⟨_, hread ["type"], ?_⟩, ⟨_, hread t.fields, ?_⟩⟩
  · rw [filter_type (hnodup.sublist hsublist)]
    exact .refl _
  · rw [filter_fields hsublist]
    exact .refl _

namespace Conveyed

variable {plain : Bytes}

theorem payloadKind (h : m.Conveyed t signed plain) : payloadKind plain = .ok t.name := by
  obtain ⟨w, hw, hsays⟩ := h.kind
  have hkind : w.required? "type" Value.toText? = some t.name :=
    hsays.required? rfl fun u hu => hu.toText?
  unfold Rendezvous.payloadKind
  simp only [hw, Option.bind_eq_bind, Option.bind_some, hkind]
  rfl

/-- The fields of a payload are read as what they say. -/
theorem readFields {α : Type} {read : Record → Option α} {a : α} (h : m.Conveyed t signed plain)
    (hread : ∀ w, Record.Says w (("type", .ofText t.name) :: m.fields signed) → read w = some a) :
    t.readFields plain read = .ok a := by
  obtain ⟨w, hw, hsays⟩ := h.fields
  have hkind : w.required? "type" Value.toText? = some t.name :=
    hsays.required? rfl fun u hu => hu.toText?
  unfold MessageType.readFields
  simp only [hw, Option.bind_eq_bind, Option.bind_some, hkind, hread w hsays]
  exact if_pos rfl

theorem readKey {key : PublicKey} (h : m.Conveyed t signed plain)
    (hfields : m.fields signed = [("key", .bin key.bytes)]) : t.readKey plain = .ok key := by
  refine bind_eq_ok.mpr ⟨key.bytes, h.readFields fun w hw => ?_, ?_⟩
  · rw [hfields] at hw
    exact hw.required? rfl fun u hu => hu.toBytes?
  · rw [PublicKey.ofBytes?_eq_some_iff.mpr rfl]
    rfl

theorem readId {id : Address} (h : m.Conveyed t signed plain)
    (hfields : m.fields signed = [("id", .unsigned id.value.toNat)]) :
    t.readId plain = .ok id.value := by
  refine h.readFields fun w hw => ?_
  rw [hfields] at hw
  exact hw.required? rfl fun u hu => hu.toByte?

end Conveyed

/-- The first field of a message that is not acceptable, if there is one. -/
def invalidField? : Message → Option String
  | .newResponder id => if id.isResponder then none else some "id"
  | .dropResponder id reason =>
    if id.isResponder then
      if reason.all CloseCode.isDropReason then none else some "reason"
    else some "id"
  | .disconnected id => if id = .server then some "id" else none
  | _ => none

theorem invalidField?_eq_none_iff : m.invalidField? = none ↔ m.Valid := by
  cases m with
  | dropResponder id reason =>
    simp only [invalidField?, Valid, Option.all_eq_true]
    split
    · next hid => simp [hid]
    · next hid => simp [hid]
  | _ => simp [invalidField?, Valid]

/-- What a reader of a kind makes of a message of this kind. -/
def judged (m : Message) (t : MessageType) : Except CodecError Message :=
  match m.invalidField? with
  | none => .ok m
  | some field => .error (.invalidField t.name field)

theorem judged_of_valid (h : m.Valid) : m.judged t = .ok m := by
  rw [judged, invalidField?_eq_none_iff.mpr h]

/-- The message is accepted only if it is one that may be sent. -/
theorem judged_of_not_valid (h : ¬ m.Valid) :
    ∃ field, m.invalidField? = some field ∧ m.judged t = .error (.invalidField t.name field) := by
  rw [← invalidField?_eq_none_iff, ← ne_eq, Option.ne_none_iff_exists'] at h
  obtain ⟨field, hfield⟩ := h
  exact ⟨field, hfield, by rw [judged, hfield]⟩

end Message

/-- Whether an initiator is there, if it is this that a responder is told. -/
def OtherSide.connected? : OtherSide → Option Bool
  | .initiator connected => some connected
  | .responders _ => none

/-- The values of the addresses of the responders that are there, if it is this that an initiator is told. -/
def OtherSide.values? : OtherSide → Option (List UInt8)
  | .initiator _ => none
  | .responders addresses => some (addresses.map Address.value)

/-! ## Reading what is conveyed -/

variable {t : MessageType} {m : Message} {signed : Option Bytes} {plain : Bytes}

/-- **The server's answer is read as what is conveyed**, with the box in it. -/
theorem ServerAuth.read_conveyed {auth : ServerAuth}
    (h : (Message.serverAuth auth).Conveyed .serverAuth signed plain) :
    ServerAuth.read plain = .ok (auth, signed) := by
  obtain ⟨cookie, side⟩ := auth
  have hcookie : MessageType.serverAuth.accept "your_cookie" (Cookie.ofBytes? cookie.bytes) =
      .ok cookie := by rw [Cookie.ofBytes?_eq_some_iff.mpr rfl]; rfl
  refine bind_eq_ok.mpr ⟨(cookie.bytes, signed, side.connected?, side.values?),
    h.readFields fun w hw => ?_, bind_eq_ok.mpr ⟨cookie, hcookie, ?_⟩⟩
  · have hbytes : w.required? "your_cookie" Value.toBytes? = some cookie.bytes :=
      hw.required? rfl fun u hu => hu.toBytes?
    have hbox : w.optional? "signed_keys" Value.toBytes? = some signed := by
      cases signed with
      | none => cases side <;> exact hw.optional?_none rfl
      | some box => exact hw.optional?_some rfl nofun fun u hu => hu.toBytes?
    have hconnected : w.optional? "initiator_connected" Value.toBool? = some side.connected? := by
      cases side with
      | initiator connected =>
        cases signed <;> exact hw.optional?_some rfl nofun fun u hu => hu.toBool?
      | responders addresses => cases signed <;> exact hw.optional?_none rfl
    have hvalues : w.optional? "responders" Value.toByteList? = some side.values? := by
      cases side with
      | initiator connected => cases signed <;> exact hw.optional?_none rfl
      | responders addresses =>
        have hlist : ∀ u : Value, u.Says (.array (addresses.map fun a => .unsigned a.value.toNat)) →
            u.toByteList? = some (addresses.map Address.value) := fun u hu =>
          Value.Says.toByteList? (by rwa [List.map_map])
        cases signed <;> exact hw.optional?_some rfl nofun hlist
    simp only [hbytes, hbox, hconnected, hvalues, Option.bind_eq_bind, Option.bind_some]
    rfl
  · cases side with
    | initiator connected => rfl
    | responders addresses =>
      refine bind_eq_ok.mpr ⟨.responders addresses, ?_, rfl⟩
      have haddresses : (addresses.map Address.value).map Address.mk = addresses := by
        rw [List.map_map]
        exact List.map_id addresses
      exact congrArg (fun addresses => Except.ok (OtherSide.responders addresses)) haddresses

/-- A client's proof is read as what is conveyed. -/
theorem ClientAuth.read_conveyed {auth : ClientAuth}
    (h : (Message.clientAuth auth).Conveyed .clientAuth signed plain) :
    ClientAuth.read plain = .ok auth := by
  obtain ⟨cookie, subprotocols, ping, key⟩ := auth
  refine bind_eq_ok.mpr ⟨(cookie.bytes, subprotocols, ping, key.map PublicKey.bytes),
    h.readFields fun w hw => ?_, bind_eq_ok.mpr ⟨cookie, ?_, ?_⟩⟩
  · have hbytes : w.required? "your_cookie" Value.toBytes? = some cookie.bytes :=
      hw.required? rfl fun u hu => hu.toBytes?
    have htexts : w.required? "subprotocols" Value.toTexts? = some subprotocols :=
      hw.required? rfl fun u hu => hu.toTexts?
    have hping : w.required? "ping_interval" (Value.toNat? UInt32.size) = some ping.toNat :=
      hw.required? rfl fun u hu => hu.toNat? ping.toNat_lt
    have hkey : w.optional? "your_key" Value.toBytes? = some (key.map PublicKey.bytes) := by
      cases key with
      | none => exact hw.optional?_none rfl
      | some key => exact hw.optional?_some rfl nofun fun u hu => hu.toBytes?
    simp only [hbytes, htexts, hping, hkey, Option.bind_eq_bind, Option.bind_some,
      UInt32.ofNat_toNat]
    rfl
  · rw [Cookie.ofBytes?_eq_some_iff.mpr rfl]
    rfl
  · cases key with
    | none => rfl
    | some key =>
      refine bind_eq_ok.mpr ⟨some key, ?_, rfl⟩
      show some <$> MessageType.clientAuth.accept "your_key" (PublicKey.ofBytes? key.bytes) = _
      rw [PublicKey.ofBytes?_eq_some_iff.mpr rfl]
      rfl

theorem MessageType.acceptResponder_value (t : MessageType) (id : Address) :
    t.acceptResponder id.value =
      if id.isResponder then .ok id else .error (.invalidField t.name "id") := by
  unfold acceptResponder
  show t.accept "id" (if id.isResponder then some id else none) = _
  split <;> rfl

/-- The reason for dropping a responder is accepted if it is a code that is meant for it. -/
theorem accept_reason (code : CloseCode) :
    MessageType.dropResponder.accept "reason"
        ((CloseCode.ofCode? (UInt16.ofNat code.code.toNat)).filter CloseCode.isDropReason) =
      if code.isDropReason then .ok code
      else .error (.invalidField MessageType.dropResponder.name "reason") := by
  rw [UInt16.ofNat_toNat, CloseCode.ofCode?_code, Option.filter_some]
  split <;> rfl

theorem readDropResponder_conveyed {id : Address} {reason : Option CloseCode}
    (h : (Message.dropResponder id reason).Conveyed .dropResponder signed plain) :
    readDropResponder plain = (Message.dropResponder id reason).judged .dropResponder := by
  have hfields : MessageType.dropResponder.readFields plain (fun r => do
      let id ← r.required? "id" Value.toByte?
      let code ← r.optional? "reason" (Value.toNat? UInt16.size)
      return (id, code)) = .ok (id.value, reason.map fun c => c.code.toNat) := by
    refine h.readFields fun w hw => ?_
    have hid : w.required? "id" Value.toByte? = some id.value :=
      hw.required? rfl fun u hu => hu.toByte?
    have hreason : w.optional? "reason" (Value.toNat? UInt16.size) =
        some (reason.map fun c => c.code.toNat) := by
      cases reason with
      | none => exact hw.optional?_none rfl
      | some code => exact hw.optional?_some rfl nofun fun u hu => hu.toNat? code.code.toNat_lt
    simp only [hid, hreason, Option.bind_eq_bind, Option.bind_some]
    rfl
  show (MessageType.dropResponder.readFields plain _ >>= _) = _
  rw [hfields]
  show (MessageType.dropResponder.acceptResponder id.value >>= _) = _
  rw [MessageType.acceptResponder_value]
  by_cases hid : id.isResponder = true
  · rw [if_pos hid, Message.judged, Message.invalidField?, if_pos hid]
    cases reason with
    | none => rfl
    | some code =>
      show (some <$> MessageType.dropResponder.accept "reason" _ >>= fun reason =>
        pure (Message.dropResponder id reason)) = _
      rw [accept_reason, Option.all_some]
      split <;> rfl
  · rw [if_neg hid, Message.judged, Message.invalidField?, if_neg hid]
    rfl

/-- **What is conveyed is judged**: the message is read if it is one that may be sent, and else the first
field that is not acceptable is named. -/
theorem MessageType.read_conveyed (h : m.Conveyed t signed plain) : t.read plain = m.judged t := by
  have htype := h.type
  cases m with
  | serverHello key | clientHello key =>
    cases htype
    exact map_eq_ok.mpr ⟨key, h.readKey rfl, rfl⟩
  | clientAuth auth =>
    cases htype
    exact map_eq_ok.mpr ⟨auth, ClientAuth.read_conveyed h, rfl⟩
  | serverAuth auth =>
    cases htype
    exact map_eq_ok.mpr ⟨(auth, signed), ServerAuth.read_conveyed h, rfl⟩
  | newInitiator =>
    cases htype
    exact map_eq_ok.mpr ⟨(), h.readFields fun _ _ => rfl, rfl⟩
  | newResponder id =>
    cases htype
    show (MessageType.newResponder.readId plain >>= _) = _
    rw [h.readId rfl]
    show Message.newResponder <$> MessageType.newResponder.acceptResponder id.value = _
    rw [acceptResponder_value, Message.judged, Message.invalidField?]
    split <;> rfl
  | dropResponder id reason =>
    cases htype
    exact readDropResponder_conveyed h
  | sendError id =>
    cases htype
    refine bind_eq_ok.mpr ⟨id.toList, h.readFields fun w hw => ?_, ?_⟩
    · exact hw.required? rfl fun u hu => hu.toBytes?
    · refine map_eq_ok.mpr ⟨id, ?_, rfl⟩
      rw [Octets.ofList?_toList]
      rfl
  | disconnected id =>
    cases htype
    show (MessageType.disconnected.readId plain >>= _) = _
    rw [h.readId rfl]
    rw [Message.judged, Message.invalidField?]
    by_cases hid : id = .server
    · subst hid
      rfl
    · rw [if_neg hid]
      show Message.disconnected <$> MessageType.disconnected.accept "id"
        (if id.value = 0 then none else some id) = _
      rw [if_neg (Address.value_ne_zero hid)]
      rfl
  | raw => cases htype

/-- **Every message is read back**, if it is one that may be sent. -/
theorem MessageType.read_plain (h : m.type? = some t) (hvalid : m.Valid) (hfits : m.Fits)
    (hsigned : Message.BoxFits signed) : t.read (m.plain signed) = .ok m := by
  rw [read_conveyed (m.conveyed_plain h hfits hsigned), Message.judged_of_valid hvalid]

/-- **The server's answer is read back**, with the box in it. -/
theorem ServerAuth.read_plain (auth : ServerAuth) (hfits : (Message.serverAuth auth).Fits)
    (hsigned : Message.BoxFits signed) :
    ServerAuth.read ((Message.serverAuth auth).plain signed) = .ok (auth, signed) :=
  read_conveyed (Message.conveyed_plain rfl hfits hsigned)

/-- A kind is found by its name. -/
theorem MessageType.find?_name {t : MessageType} {types : List MessageType} (h : t ∈ types) :
    types.find? (·.name == t.name) = some t := by
  have hfound : (types.find? (·.name == t.name)).isSome = true :=
    List.find?_isSome.mpr ⟨t, h, beq_self_eq_true _⟩
  obtain ⟨found, hfind⟩ := Option.isSome_iff_exists.mp hfound
  have heq := List.find?_some hfind
  rw [beq_iff_eq, name_inj] at heq
  rw [hfind, heq]

/-- What clients send is read as the kind that it names. -/
theorem Message.read_conveyed (h : m.Conveyed t signed plain) (ht : t ∈ MessageType.fromClients) :
    Message.read plain = m.judged t := by
  unfold Message.read
  rw [h.payloadKind, ok_bind, MessageType.find?_name ht]
  exact MessageType.read_conveyed h

/-- What clients send is read as what it is. -/
theorem Message.read_plain (h : m.type? = some t) (ht : t ∈ MessageType.fromClients)
    (hvalid : m.Valid) (hfits : m.Fits) (hsigned : Message.BoxFits signed) :
    Message.read (m.plain signed) = .ok m := by
  rw [read_conveyed (m.conveyed_plain h hfits hsigned) ht, judged_of_valid hvalid]

theorem Message.payloadKind_plain (h : m.type? = some t) (hfits : m.Fits)
    (hsigned : Message.BoxFits signed) : payloadKind (m.plain signed) = .ok t.name :=
  (m.conveyed_plain h hfits hsigned).payloadKind

/-! ## Sealing -/

/-- The box that vouches for the server's key holds two keys. -/
theorem Message.length_of_signedKeys {m : Message} {s : Sealing} (h : m.signedKeys s = .ok signed)
    (box : Bytes) (hbox : signed = some box) : box.length < 2 ^ 32 := by
  subst hbox
  unfold signedKeys at h
  split at h
  · split at h
    · cases h
    · cases h
    · cases h
      rw [Box.signKeys, Box.length_encrypt]
      simp [Box.overhead, PublicKey.bytes, Octets.length_toList]
  · cases h

/-- A payload is in plain, or it is sealed for the receiver. -/
theorem Message.payload_eq_ok {m : Message} {s : Sealing} {payload : Bytes} :
    m.payload s = .ok payload ↔ ∃ signed, m.signedKeys s = .ok signed ∧
      ((m.isSealed = false ∧ payload = m.plain signed) ∨
        (m.isSealed = true ∧ ∃ key, s.peer = some key ∧
          payload = Box.encrypt key s.session.secretKey s.nonce (m.plain signed))) := by
  unfold Message.payload
  simp only [bind_eq_ok]
  refine exists_congr fun signed => and_congr_right fun _ => ?_
  cases m.isSealed with
  | false => simp [pure_eq_ok]
  | true =>
    cases s.peer with
    | none => simp [throw, throwThe, MonadExceptOf.throw]
    | some key => simp [pure_eq_ok]

end Rendezvous
