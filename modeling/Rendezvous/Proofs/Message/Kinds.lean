import Rendezvous.Proofs.Message.Exactness
import Rendezvous.Proofs.MessagePack.Readers

/-!
# The kinds of payloads

What clients send is read twice: a first reader looks at the kind alone, and then the reader of this kind
looks at all its fields. The two know different names, so they differ in what is a stranger to them, and in
what comes twice.

The kind is the first field of every kind (`MessageType.fields_eq`). So all readers find the same value under
it, and no payload passes for two kinds. A payload that is a map is read for its kind by whoever knows more,
so the readers of the kinds and the reader of what clients send agree about it. A payload that is an array
with anything behind the kind is not read for its kind, though the reader of its kind may accept it.

* **`MessageType.eq_of_read`** — a payload is read as one kind.
* **`payloadKind_of_read`** — its kind is found, if it is a map.
* **`Message.readers_agree`** — the readers agree.
-/

namespace Rendezvous

open MessagePack (Record Value)

variable {s t : MessageType} {m m' : Message} {plain : Bytes}

/-! ## The field that gives the kind -/

namespace MessageType

theorem nodup_fields (t : MessageType) : t.fields.Nodup := by
  cases t <;> decide

/-- The kind is the first field. -/
theorem fields_eq (t : MessageType) : ∃ others, t.fields = "type" :: others := by
  cases t <;> exact ⟨_, rfl⟩

/-- Whatever is read as a kind has the name of this kind. -/
theorem named_of_read (h : t.read plain = .ok m) :
    ∃ r, Record.read? t.fields plain = some r ∧ r.required? "type" Value.toText? = some t.name := by
  have named : ∀ {α : Type} {read : Record → Option α} {a : α}, t.readFields plain read = .ok a →
      ∃ r, Record.read? t.fields plain = some r ∧ r.required? "type" Value.toText? = some t.name := by
    intro α read a hfields
    obtain ⟨r, hr, hname, -⟩ := readFields_eq_ok.mp hfields
    exact ⟨r, hr, hname⟩
  cases t with
  | serverHello | clientHello | clientAuth | serverAuth =>
    obtain ⟨_, h, -⟩ := map_eq_ok.mp h
    obtain ⟨_, hfields, -⟩ := bind_eq_ok.mp h
    exact named hfields
  | newInitiator =>
    obtain ⟨_, hfields, -⟩ := map_eq_ok.mp h
    exact named hfields
  | newResponder | dropResponder | sendError | disconnected =>
    obtain ⟨_, hfields, -⟩ := bind_eq_ok.mp h
    exact named hfields

/-- **A payload is read as one kind**, since all readers find the same value where the kind is given. -/
theorem eq_of_read (h : s.read plain = .ok m) (h' : t.read plain = .ok m') : s = t := by
  obtain ⟨r, hr, hname⟩ := named_of_read h
  obtain ⟨r', hr', hname'⟩ := named_of_read h'
  obtain ⟨v, hv, hr⟩ := Option.bind_eq_some_iff.mp hr
  obtain ⟨v', hv', hr'⟩ := Option.bind_eq_some_iff.mp hr'
  cases hv.symm.trans hv'
  obtain ⟨others, hs⟩ := s.fields_eq
  obtain ⟨others', ht⟩ := t.fields_eq
  have hlookup := Record.lookup_first (hs ▸ s.nodup_fields) (ht ▸ t.nodup_fields) (hs ▸ hr) (ht ▸ hr')
  rw [Record.required?, hlookup] at hname
  exact name_inj.mp (Option.some.inj (hname.symm.trans hname'))

end MessageType

/-! ## Reading the kind alone -/

theorem payloadKind_eq_ok {name : String} :
    payloadKind plain = .ok name ↔
      ∃ r, Record.read? ["type"] plain = some r ∧ r.required? "type" Value.toText? = some name := by
  have hshaped : ∀ {α : Type} {a : Option α} {b : α}, shaped a = .ok b ↔ a = some b := by
    intro α a b
    cases a <;> simp [shaped]
  exact hshaped.trans Option.bind_eq_some_iff

/-- **The kind of a map is found**, if it is read as this kind. -/
theorem payloadKind_of_read {entries : List (Value × Value)}
    (hmap : MessagePack.read? plain = some (.map entries)) (h : t.read plain = .ok m) :
    payloadKind plain = .ok t.name := by
  obtain ⟨r, hr, hname⟩ := MessageType.named_of_read h
  obtain ⟨v, hv, hr⟩ := Option.bind_eq_some_iff.mp hr
  cases hmap.symm.trans hv
  obtain ⟨others, hfields⟩ := t.fields_eq
  have hfirst : ["type"] <+: t.fields := hfields ▸ List.prefix_append ["type"] others
  have hpart := Record.ofValue?_map_of_known t.nodup_fields hfirst hr
  refine payloadKind_eq_ok.mpr ⟨_, Option.bind_eq_some_iff.mpr ⟨_, hmap, hpart⟩, ?_⟩
  rw [Record.required?, Record.lookup_filter_of_mem (List.mem_singleton.mpr rfl)]
  exact hname

/-- An array with anything behind the kind is not read for its kind. -/
theorem payloadKind_array {items : List Value} (harray : MessagePack.read? plain = some (.array items))
    (hitems : 2 ≤ items.length) : payloadKind plain = .error .deserialization := by
  have hlong : Record.ofValue? ["type"] (.array items) = none := if_neg (Nat.not_le.mpr hitems)
  have hread : Record.read? ["type"] plain = none := by
    rw [Record.read?, harray, Option.bind_some, hlong]
  unfold payloadKind
  rw [hread]
  rfl

/-! ## Reading what clients send -/

/-- What is read from a client has its kind, and is what the reader of this kind reads. -/
theorem Message.kind_of_read (h : Message.read plain = .ok m) :
    payloadKind plain = .ok m.kind ∧
      ∃ t ∈ MessageType.fromClients, m.type? = some t ∧ t.read plain = .ok m := by
  obtain ⟨name, hname, h⟩ := bind_eq_ok.mp h
  split at h
  · next t hfind =>
    have htype := MessageType.type?_of_read h
    have heq : t.name = name := by simpa using List.find?_some hfind
    refine ⟨?_, t, List.mem_of_find?_eq_some hfind, htype, h⟩
    rw [hname, Message.kind, htype, ← heq]
  · cases h

theorem Message.read_of_payloadKind (ht : t ∈ MessageType.fromClients)
    (h : payloadKind plain = .ok t.name) : Message.read plain = t.read plain := by
  unfold Message.read
  rw [h, ok_bind, MessageType.find?_name ht]

/-- Values that a payload of a kind may have, in the order of its fields and no more of them than it needs. -/
def MessageType.sparse (t : MessageType) : List Value :=
  .ofText t.name :: match t with
    | .serverHello | .clientHello => [.bin (List.replicate 32 0)]
    | .clientAuth => [.bin (List.replicate 16 0), .array [], .unsigned 0]
    | .serverAuth => [.bin (List.replicate 16 0), .nil, .bool true]
    | .newInitiator => []
    | .newResponder | .dropResponder | .disconnected => [.unsigned 2]
    | .sendError => [.bin (List.replicate 8 0)]

/-- An array of these values is accepted by the reader of the kind. -/
theorem MessageType.read_sparse (t : MessageType) : ∃ m, t.read (Value.array t.sparse).write = .ok m := by
  cases t <;> exact ⟨_, rfl⟩

theorem MessageType.read?_sparse (t : MessageType) :
    MessagePack.read? (Value.array t.sparse).write = some (.array t.sparse) := by
  cases t <;> rfl

theorem MessageType.two_le_length_sparse (h : t ≠ .newInitiator) : 2 ≤ t.sparse.length := by
  cases t <;> first | exact absurd rfl h | decide

/-- **The readers agree.** What is read from a client has the kind that is read alone, and is what the reader
of its kind reads. The other way around, whatever map the reader of a client's kind accepts is read from a
client as the same message. An array with two items or more is not read from a client; still, the reader of
each kind that has more than one field accepts such an array. No payload is accepted by the readers of two
kinds, nor by the reader of the server's answer and by that of another kind. -/
theorem Message.readers_agree :
    (∀ (plain : Bytes) (m : Message), Message.read plain = .ok m → payloadKind plain = .ok m.kind ∧
      ∃ t ∈ MessageType.fromClients, m.type? = some t ∧ t.read plain = .ok m) ∧
    (∀ (plain : Bytes) (entries : List (Value × Value)),
      MessagePack.read? plain = some (.map entries) →
      ∀ t ∈ MessageType.fromClients, ∀ m, t.read plain = .ok m → Message.read plain = .ok m) ∧
    (∀ (plain : Bytes) (items : List Value), MessagePack.read? plain = some (.array items) →
      2 ≤ items.length → Message.read plain = .error .deserialization) ∧
    (∀ t : MessageType, t ≠ .newInitiator → ∃ (plain : Bytes) (items : List Value) (m : Message),
      MessagePack.read? plain = some (.array items) ∧ 2 ≤ items.length ∧ t.read plain = .ok m) ∧
    (∀ (plain : Bytes) (s t : MessageType) (m m' : Message), s.read plain = .ok m →
      t.read plain = .ok m' → s = t) ∧
    ∀ (plain : Bytes) (answer : ServerAuth × Option Bytes) (t : MessageType) (m : Message),
      ServerAuth.read plain = .ok answer → t.read plain = .ok m → t = .serverAuth := by
  refine ⟨fun plain m h => kind_of_read h, fun plain entries hmap t ht m h => ?_,
    fun plain items harray hitems => ?_, fun t ht => ?_, fun plain s t m m' h h' => ?_,
    fun plain answer t m hanswer h => ?_⟩
  · rw [read_of_payloadKind ht (payloadKind_of_read hmap h)]
    exact h
  · unfold Message.read
    rw [payloadKind_array harray hitems]
    rfl
  · obtain ⟨m, hm⟩ := t.read_sparse
    exact ⟨_, _, m, t.read?_sparse, MessageType.two_le_length_sparse ht, hm⟩
  · exact MessageType.eq_of_read h h'
  · have hread : MessageType.serverAuth.read plain = .ok (.serverAuth answer.1) :=
      map_eq_ok.mpr ⟨answer, hanswer, rfl⟩
    exact MessageType.eq_of_read h hread

end Rendezvous
