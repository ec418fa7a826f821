import Rendezvous.Proofs.Message.Exactness

/-!
# Messages in other presentations

A payload need not look as it is written here. Other writers order the fields of a message as they like,
name them by texts, by byte strings or by positions, choose other markers, and add fields of which nobody
here knows. What is read depends on what the fields say alone.

The payload is read twice, once for its kind and once for its fields. Both readers know the first names of
the kind's fields, the first one only `type`, so both find in any presentation what the message says
(`Record.read?_presents`).

* **`Message.Presented`** — the entries of a map present a message.
* **`Message.read_presented`** — it is what is read from them.
-/

namespace Rendezvous

open MessagePack (Head Record Value)

/-- The fields that a payload of a kind may lack. -/
def MessageType.options : MessageType → List String
  | .clientAuth => ["your_key"]
  | .serverAuth => ["signed_keys", "initiator_connected", "responders"]
  | .dropResponder => ["reason"]
  | _ => []

namespace Message

variable {t : MessageType} {m : Message} {signed : Option Bytes} {entries : List (Value × Value)}
  {form : Bytes}

/-- The entries of a map present a message of a kind and the box in it: one field gives the kind, and the
others are those of the message. -/
def Presented (m : Message) (t : MessageType) (signed : Option Bytes) (entries : List (Value × Value)) :
    Prop :=
  m.type? = some t ∧
    Record.Presents t.fields t.options (("type", .ofText t.name) :: m.fields signed) entries

/-- Any presentation conveys the message, in any spelling and with anything behind it. -/
theorem Presented.conveyed (h : m.Presented t signed entries)
    (hform : (Value.map entries).Spelled MessagePack.maxLevels form) (rest : Bytes) :
    m.Conveyed t signed (form ++ rest) := by
  obtain ⟨htype, hpresents⟩ := h
  have hnames : t.fields.Nodup := by cases t <;> decide
  have hkind : ["type"] <+: t.fields := by cases t <;> exact ⟨_, rfl⟩
  have hsublist : ((("type", .ofText t.name) :: m.fields signed).map Prod.fst).Sublist t.fields :=
    fields_sublist htype
  have hnodup := hnames.sublist hsublist
  refine ⟨htype, ?_, ?_⟩
  · obtain ⟨w, hw, hsays⟩ := Record.read?_presents hnames hkind hnodup hpresents hform rest
    rw [filter_type hnodup] at hsays
    exact ⟨w, hw, hsays⟩
  · obtain ⟨w, hw, hsays⟩ :=
      Record.read?_presents hnames (List.prefix_refl t.fields) hnodup hpresents hform rest
    rw [filter_fields hsublist] at hsays
    exact ⟨w, hw, hsays⟩

/-- **Reading depends on what a payload says alone.** In whatever order, under whatever keys and markers, with
whatever strangers between and bytes behind a valid message is presented, it is what is read: by the reader
of its kind, by the reader of what clients send, if the kind is one of theirs, and by the reader of the
server's answer, together with the box. -/
theorem read_presented (hpresented : m.Presented t signed entries)
    (hform : (Value.map entries).Spelled MessagePack.maxLevels form) (hvalid : m.Valid)
    (rest : Bytes) :
    t.read (form ++ rest) = .ok m ∧
    (t ∈ MessageType.fromClients → Message.read (form ++ rest) = .ok m) ∧
    ∀ auth, m = .serverAuth auth → ServerAuth.read (form ++ rest) = .ok (auth, signed) := by
  have hread := (hpresented.conveyed hform rest).readExactly
  exact ⟨hread.valid hvalid, fun ht => (hread.fromClients ht).trans (hread.valid hvalid), hread.answer⟩

/-- A payload that drops a responder, entry by entry with its two forms. It starts with a stranger, names
the fields in reverse by a byte string, a position and a text, marks the reason as signed and the kind as a
byte string. -/
def reversedDrop : List ((Value × Value) × Bytes × Bytes) :=
  [((.unsigned 7, .array [.nil, .bool true]), [0x07], [0x92, 0xc0, 0xc3]),
    ((.bin (Text.utf8 "reason"), .signed 3004), [0xc4, 0x06] ++ Text.utf8 "reason", [0xd1, 0x0b, 0xbc]),
    ((.unsigned 1, .unsigned 2), [0x01], [0xcd, 0x00, 0x02]),
    ((.ofText "type", .bin (Text.utf8 "drop-responder")), [0xd9, 0x04] ++ Text.utf8 "type",
      [0xc4, 0x0e] ++ Text.utf8 "drop-responder")]

theorem read_presented_drop :
    ∃ form : Bytes,
      (Message.dropResponder ⟨2⟩ (some .dropByInitiator)).Presented .dropResponder none
        (reversedDrop.map Prod.fst) ∧
      (Value.map (reversedDrop.map Prod.fst)).Spelled MessagePack.maxLevels form ∧
      Message.read (form ++ [0xff, 0xff]) = .ok (.dropResponder ⟨2⟩ (some .dropByInitiator)) := by
  have hpresented : (Message.dropResponder ⟨2⟩ (some .dropByInitiator)).Presented .dropResponder none
      (reversedDrop.map Prod.fst) := by
    refine ⟨rfl, (reversedDrop.tail.map Prod.fst).reverse, (reversedDrop.take 1).map Prod.fst, [], ?_, ?_,
      ⟨.nil, List.forall_mem_nil _⟩, ?_⟩
    · exact (List.reverse_perm (reversedDrop.map Prod.fst)).symm
    · exact .cons ⟨.str (by decide), .text _⟩ (.cons ⟨.position rfl, .same _⟩
        (.cons ⟨.bin (by decide), .signed 3004⟩ .nil))
    · intro e he
      cases List.mem_singleton.mp he
      exact .position (by decide)
  have hsized : ∀ marker width (head : Nat → Head) n,
      (marker, width, head) ∈ MessagePack.sizedMarkers → n < 256 ^ width →
      (head n).Spelled (marker :: BigEndian.encode width n) := fun _ _ _ _ h hn => .sized h hn
  have hbin : (0xc4, 1, .bin) ∈ MessagePack.sizedMarkers := by simp [MessagePack.sizedMarkers]
  have hstr : (0xd9, 1, .str) ∈ MessagePack.sizedMarkers := by simp [MessagePack.sizedMarkers]
  have hnat : (0xcd, 2, fun n => .value (.unsigned n)) ∈ MessagePack.sizedMarkers := by
    simp [MessagePack.sizedMarkers]
  have hint : (0xd1, 2, 0x8000) ∈ MessagePack.signedMarkers := by decide
  have hkeys : ∀ e ∈ reversedDrop, e.1.1.Spelled 1022 e.2.1 := by
    simp only [reversedDrop, List.forall_mem_cons]
    exact ⟨.value (.fixnat (by decide)), .bin (hsized 0xc4 1 .bin 6 hbin (by decide)),
      .value (.fixnat (by decide)), .str (hsized 0xd9 1 .str 4 hstr (by decide)),
      List.forall_mem_nil _⟩
  have hitems : ∀ i ∈ [(Value.nil, [0xc0]), (.bool true, [0xc3])], i.1.Spelled 1021 i.2 := by
    simp only [List.forall_mem_cons]
    exact ⟨.value .nil, .value (.bool true), List.forall_mem_nil _⟩
  have hvalues : ∀ e ∈ reversedDrop, e.1.2.Spelled 1022 e.2.2 := by
    simp only [reversedDrop, List.forall_mem_cons]
    exact ⟨.array (.fixarray (by decide)) hitems,
      .value (.signed (n := 3004) hint (by decide) (by decide)),
      .value (hsized 0xcd 2 _ 2 hnat (by decide)), .bin (hsized 0xc4 1 .bin 14 hbin (by decide)),
      List.forall_mem_nil _⟩
  have hform := Value.Spelled.map (.fixmap (by decide)) hkeys hvalues
  exact ⟨_, hpresented, hform,
    (read_presented hpresented hform ⟨rfl, fun _ h => Option.some.inj h ▸ rfl⟩ [0xff, 0xff]).2.1
      (by decide)⟩

end Message

end Rendezvous
