import Mathlib.Data.List.Forall2
import Mathlib.Data.List.Perm.Basic
import Rendezvous.Proofs.MessagePack.Records

/-!
# Records in other presentations

A record may be presented in many ways besides the one in which it is written. The fields may come in any
order, under their names or under their positions, and strangers may stand between them; texts may be marked
as byte strings, byte strings may be arrays of numbers, and numbers may be marked as signed. A reader that
looks the fields up finds values that say the same.

The order is of no account because no field comes twice: looking a field up is then the same as having it
(`lookup_eq_some_iff`), which does not depend on the order.

* **`Value.Says`** — a value says the same as the one that is written.
* **`Record.Presents`** — the entries of a map present a record.
* **`ofValue?_presents`** — what is looked up in them.
-/

namespace Rendezvous.MessagePack

/-! ## Lists that correspond -/

section Correspondence

variable {α β : Type} {R : α → β → Prop} {as : List α} {bs : List β}

theorem exists_of_forall₂ (h : List.Forall₂ R as bs) {a : α} (ha : a ∈ as) : ∃ b ∈ bs, R a b := by
  induction h with
  | nil => cases ha
  | @cons a b _ _ hab _ ih =>
    rcases List.mem_cons.mp ha with rfl | ha
    · exact ⟨b, .head _, hab⟩
    · obtain ⟨b, hb, hab⟩ := ih ha
      exact ⟨b, .tail _ hb, hab⟩

theorem exists_of_forall₂_right (h : List.Forall₂ R as bs) {b : β} (hb : b ∈ bs) : ∃ a ∈ as, R a b :=
  exists_of_forall₂ h.flip hb

end Correspondence

/-! ## Values that say the same -/

/-- A value says the same as another one, which is as it is written. -/
inductive Value.Says : Value → Value → Prop where
  | same (v : Value) : Says v v
  /-- A number that is marked as signed. -/
  | signed (n : Nat) : Says (.signed n) (.unsigned n)
  /-- A text that is marked as a byte string. -/
  | text (bytes : Bytes) : Says (.bin bytes) (.str bytes)
  /-- A byte string as an array of its bytes. -/
  | bytes {items : List Value} {data : Bytes}
      (h : List.Forall₂ Says items (data.map fun b => .unsigned b.toNat)) :
      Says (.array items) (.bin data)
  | array {items values : List Value} (h : List.Forall₂ Says items values) :
      Says (.array items) (.array values)

namespace Value.Says

variable {u v : Value}

theorem ne_nil (h : u.Says v) (hv : v ≠ .nil) : u ≠ .nil := by
  cases h with
  | same => exact hv
  | _ => exact nofun

theorem toBool? {b : Bool} (h : u.Says (.bool b)) : u.toBool? = some b := by
  cases h
  rfl

theorem toNat? {bound n : Nat} (h : u.Says (.unsigned n)) (hn : n < bound) :
    u.toNat? bound = some n := by
  cases h with
  | same => exact if_pos hn
  | signed => exact if_pos ⟨Int.natCast_nonneg n, hn⟩

theorem toByte? {b : UInt8} (h : u.Says (.unsigned b.toNat)) : u.toByte? = some b := by
  rw [Value.toByte?, h.toNat? b.toNat_lt, Option.map_some, UInt8.ofNat_toNat]

theorem toText? {s : String} (h : u.Says (.ofText s)) : u.toText? = some s := by
  generalize hv : Value.ofText s = v at h
  cases h with
  | same =>
    rw [← hv]
    exact Text.ofUtf8?_utf8 s
  | text bytes =>
    cases hv
    exact Text.ofUtf8?_utf8 s
  | _ => cases hv

/-- Where each item says the same as what is written for it, the items are read. -/
theorem mapM_eq_some {α : Type} {convert : Value → Option α} {write : α → Value} {items : List Value}
    {as : List α} (h : List.Forall₂ Says items (as.map write))
    (hconvert : ∀ a ∈ as, ∀ u, u.Says (write a) → convert u = some a) :
    items.mapM convert = some as := by
  induction as generalizing items with
  | nil =>
    cases h
    rfl
  | cons a as ih =>
    obtain ⟨u, us, hu, hus, rfl⟩ := List.forall₂_cons_right_iff.mp h
    have htail := ih hus fun b hb => hconvert b (.tail a hb)
    rw [List.mapM_cons, hconvert a (.head as) u hu, htail]
    rfl

/-- The items of an array that says the same say the same. -/
theorem items {values : List Value} (h : u.Says (.array values)) :
    ∃ items, u = .array items ∧ List.Forall₂ Says items values := by
  cases h with
  | same => exact ⟨values, rfl, List.forall₂_same.mpr fun v _ => .same v⟩
  | array h => exact ⟨_, rfl, h⟩

theorem toBytes? {data : Bytes} (h : u.Says (.bin data)) : u.toBytes? = some data := by
  cases h with
  | same => rfl
  | bytes h => exact mapM_eq_some h fun b _ u hu => hu.toByte?

theorem toTexts? {texts : List String} (h : u.Says (.array (texts.map .ofText))) :
    u.toTexts? = some texts := by
  obtain ⟨items, rfl, hitems⟩ := h.items
  exact mapM_eq_some hitems fun s _ u hu => hu.toText?

theorem toByteList? {bytes : List UInt8} (h : u.Says (.array (bytes.map fun b => .unsigned b.toNat))) :
    u.toByteList? = some bytes := by
  obtain ⟨items, rfl, hitems⟩ := h.items
  exact mapM_eq_some hitems fun b _ u hu => hu.toByte?

end Value.Says

namespace Record

variable {w r : Record} {names known : List String} {name : String} {key u v : Value}

/-! ## Looking fields up -/

theorem lookup_eq_some_iff (h : (r.map Prod.fst).Nodup) : r.lookup name = some v ↔ (name, v) ∈ r := by
  induction r with
  | nil => simp
  | cons field r ih =>
    obtain ⟨other, value⟩ := field
    rw [List.map_cons, List.nodup_cons] at h
    rw [List.lookup_cons, List.mem_cons, Prod.mk.injEq]
    by_cases heq : name = other
    · subst heq
      -- A field of the same name further behind would come twice.
      have hnot : (name, v) ∉ r := fun hmem =>
        h.1 (List.mem_map.mpr ⟨(name, v), hmem, rfl⟩)
      simp [hnot, eq_comm]
    · simp [beq_false_of_ne heq, heq, ih h.2]

theorem lookup_eq_none_iff : r.lookup name = none ↔ name ∉ r.map Prod.fst := by
  induction r with
  | nil => simp
  | cons field r ih =>
    obtain ⟨other, value⟩ := field
    rw [List.lookup_cons, List.map_cons, List.mem_cons, not_or]
    by_cases heq : name = other
    · simp [heq]
    · simp [beq_false_of_ne heq, heq, ih]

/-- A record says the same as another one: what is looked up says the same, where the other one has the
field, and else it is missing or nil. -/
structure Says (w r : Record) : Prop where
  present : ∀ name v, r.lookup name = some v → ∃ u, w.lookup name = some u ∧ u.Says v
  absent : ∀ name, r.lookup name = none → w.lookup name = none ∨ w.lookup name = some .nil

theorem Says.refl (r : Record) : r.Says r :=
  ⟨fun _ v h => ⟨v, h, .same v⟩, fun _ h => .inl h⟩

section Lookups

variable {α : Type} {convert : Value → Option α} {a : α}

theorem Says.required? (h : w.Says r) (hv : r.lookup name = some v)
    (hconvert : ∀ u, u.Says v → convert u = some a) :
    w.required? name convert = some a := by
  obtain ⟨u, hu, hsays⟩ := h.present name v hv
  rw [Record.required?, hu]
  exact hconvert u hsays

theorem Says.optional?_some (h : w.Says r) (hv : r.lookup name = some v) (hnil : v ≠ .nil)
    (hconvert : ∀ u, u.Says v → convert u = some a) :
    w.optional? name convert = some (some a) := by
  obtain ⟨u, hu, hsays⟩ := h.present name v hv
  have hne := hsays.ne_nil hnil
  have hread := hconvert u hsays
  unfold Record.optional?
  rw [hu]
  cases u <;> first | exact absurd rfl hne | exact congrArg (Option.map some) hread

theorem Says.optional?_none (h : w.Says r) (hnone : r.lookup name = none) :
    w.optional? name convert = some none := by
  unfold Record.optional?
  rcases h.absent name hnone with hw | hw <;> rw [hw]

end Lookups

/-! ## Keys -/

/-- A key that names a field: by its name as a text or as a byte string, or by its position. -/
inductive Names (names : List String) : Value → String → Prop where
  | str {name : String} (h : name ∈ names) : Names names (.str (Text.utf8 name)) name
  | bin {name : String} (h : name ∈ names) : Names names (.bin (Text.utf8 name)) name
  | position {i : Nat} {name : String} (h : names[i]? = some name) : Names names (.unsigned i) name

/-- A key that names no field: an unknown name, or a position that is out of range. -/
inductive Strange (names : List String) : Value → Prop where
  | str {text : Bytes} (h : ∀ name ∈ names, Text.utf8 name ≠ text) : Strange names (.str text)
  | bin {text : Bytes} (h : ∀ name ∈ names, Text.utf8 name ≠ text) : Strange names (.bin text)
  | position {i : Nat} (h : names.length ≤ i) : Strange names (.unsigned i)

/-- A reader that knows only the first names takes keys for the same fields, as far as it knows them. -/
theorem fieldOf?_of_names (hnodup : names.Nodup) (hknown : known <+: names) (h : Names names key name) :
    fieldOf? known key = some (if name ∈ known then some name else none) := by
  cases h with
  | str h | bin h => exact fieldOf?_ofText known name
  | @position i _ h =>
    obtain ⟨more, rfl⟩ := hknown
    show some known[i]? = _
    congr 1
    by_cases hi : i < known.length
    · rw [List.getElem?_append_left hi] at h
      rw [h, if_pos (List.mem_of_getElem? h)]
    · rw [List.getElem?_append_right (by omega)] at h
      have hmore := List.mem_of_getElem? h
      have hnot : name ∉ known := fun hmem => (List.disjoint_of_nodup_append hnodup) hmem hmore
      rw [if_neg hnot, List.getElem?_eq_none (by omega)]

theorem fieldOf?_of_strange (hknown : known <+: names) (h : Strange names key) :
    fieldOf? known key = some none := by
  have hunknown : ∀ {text : Bytes}, (∀ name ∈ names, Text.utf8 name ≠ text) →
      known.find? (fun name => Text.utf8 name == text) = none := fun {text} h =>
    List.find?_eq_none.mpr fun name hname heq => h name (hknown.subset hname) (by simpa using heq)
  cases h with
  | str h | bin h => exact congrArg some (hunknown h)
  | position h => exact congrArg some (List.getElem?_eq_none (Nat.le_trans hknown.length_le h))

/-- The field that an entry of a map is taken for. -/
def taken? (known : List String) (e : Value × Value) : Option (String × Value) :=
  (fieldOf? known e.1).bind fun name => name.map fun name => (name, e.2)

theorem named?_eq {entries : List (Value × Value)}
    (h : ∀ e ∈ entries, (fieldOf? known e.1).isSome = true) :
    named? known entries = some (entries.filterMap (taken? known)) := by
  induction entries with
  | nil => rfl
  | cons e entries ih =>
    obtain ⟨found, hfound⟩ := Option.isSome_iff_exists.mp (h e (.head _))
    obtain ⟨key, value⟩ := e
    rw [named?, ih fun e he => h e (.tail _ he), List.filterMap_cons]
    cases found <;> simp [taken?, hfound]

/-! ## Presenting a record -/

/-- An entry of a map presents a field. -/
def Shows (names : List String) (e : Value × Value) (field : String × Value) : Prop :=
  Names names e.1 field.1 ∧ e.2.Says field.2

/-- The entries of a map present a record: each field comes once, an option that the record has not is left
out or nil, and strangers stand anywhere between. -/
def Presents (names options : List String) (r : Record) (entries : List (Value × Value)) : Prop :=
  ∃ (shown strangers : List (Value × Value)) (missing : List String),
    entries.Perm (shown ++ strangers) ∧
    List.Forall₂ (Shows names) shown (r ++ missing.map fun name => (name, .nil)) ∧
    (missing.Nodup ∧ ∀ name ∈ missing, name ∈ options ∧ name ∉ r.map Prod.fst) ∧
    ∀ e ∈ strangers, Strange names e.1

/-- What is taken from the entries that present fields: for each field that is known, one that says the
same. -/
theorem taken_of_shows {shown : List (Value × Value)} (hnodup : names.Nodup) (hknown : known <+: names)
    (h : List.Forall₂ (Shows names) shown r) :
    List.Forall₂ (fun field other => field.1 = other.1 ∧ field.2.Says other.2)
      (shown.filterMap (taken? known)) (r.filter fun field => field.1 ∈ known) := by
  induction h with
  | nil => exact .nil
  | @cons e field shown r hshows _ ih =>
    obtain ⟨hkey, hvalue⟩ := hshows
    have htaken : taken? known e = if field.1 ∈ known then some (field.1, e.2) else none := by
      rw [taken?, fieldOf?_of_names hnodup hknown hkey]
      by_cases hmem : field.1 ∈ known <;> simp [hmem]
    rw [List.filterMap_cons, htaken, List.filter_cons]
    by_cases hmem : field.1 ∈ known
    · simp only [hmem, if_true, decide_true]
      exact .cons ⟨rfl, hvalue⟩ ih
    · simp only [hmem, if_false, decide_false]
      exact ih

theorem taken_of_strangers {strangers : List (Value × Value)} (hknown : known <+: names)
    (h : ∀ e ∈ strangers, Strange names e.1) : strangers.filterMap (taken? known) = [] :=
  List.filterMap_eq_nil_iff.mpr fun e he => by
    rw [taken?, fieldOf?_of_strange hknown (h e he)]
    rfl

/-- What is read from the entries of a map, up to its order: for each field that is known, and for each
option that is nil, one that says the same. -/
theorem named?_presents {options : List String} {entries : List (Value × Value)}
    (hnames : names.Nodup) (hknown : known <+: names) (h : Presents names options r entries) :
    ∃ (w taken : Record) (missing : List String), named? known entries = some w ∧ w.Perm taken ∧
      List.Forall₂ (fun field other => field.1 = other.1 ∧ field.2.Says other.2) taken
        ((r ++ missing.map fun name => (name, Value.nil)).filter fun field => field.1 ∈ known) ∧
      missing.Nodup ∧ ∀ name ∈ missing, name ∉ r.map Prod.fst := by
  obtain ⟨shown, strangers, missing, horder, hfields, ⟨hnodup, hoptions⟩, hstrangers⟩ := h
  have hall : ∀ e ∈ entries, (fieldOf? known e.1).isSome = true := by
    intro e he
    rcases List.mem_append.mp (horder.subset he) with he | he
    · obtain ⟨field, -, hkey, -⟩ := exists_of_forall₂ hfields he
      rw [fieldOf?_of_names hnames hknown hkey]
      rfl
    · rw [fieldOf?_of_strange hknown (hstrangers e he)]
      rfl
  have hperm := horder.filterMap (taken? known)
  rw [List.filterMap_append, taken_of_strangers hknown hstrangers, List.append_nil] at hperm
  exact ⟨_, _, missing, named?_eq hall, hperm, taken_of_shows hnames hknown hfields, hnodup,
    fun name hname => (hoptions name hname).2⟩

/-- Fields that say the same, in any order, make a record that says the same. -/
theorem says_of_perm {taken : Record} (hr : (r.map Prod.fst).Nodup) (hperm : w.Perm taken)
    (h : List.Forall₂ (fun field other => field.1 = other.1 ∧ field.2.Says other.2) taken r) :
    (w.map Prod.fst).Nodup ∧ w.Says r := by
  have hsame : taken.map Prod.fst = r.map Prod.fst := by
    rw [← List.forall₂_eq_eq_eq, List.forall₂_map_left_iff, List.forall₂_map_right_iff]
    exact h.imp fun _ _ h => h.1
  have hnodup : (w.map Prod.fst).Nodup := by
    rw [(hperm.map Prod.fst).nodup_iff, hsame]
    exact hr
  refine ⟨hnodup, fun name v hlookup => ?_, fun name hlookup => .inl ?_⟩
  · obtain ⟨⟨_, u⟩, hu, rfl, hsays⟩ :=
      exists_of_forall₂_right h ((lookup_eq_some_iff hr).mp hlookup)
    exact ⟨u, (lookup_eq_some_iff hnodup).mpr (hperm.mem_iff.mpr hu), hsays⟩
  · rw [lookup_eq_none_iff, (hperm.map Prod.fst).mem_iff, hsame]
    exact lookup_eq_none_iff.mp hlookup

/-- Options that are nil may as well be missing. -/
theorem Says.of_nils {nils : Record} (hnodup : ((r ++ nils).map Prod.fst).Nodup)
    (hnils : ∀ field ∈ nils, field.2 = .nil) (h : w.Says (r ++ nils)) : w.Says r := by
  have hr := hnodup.sublist ((List.sublist_append_left r nils).map Prod.fst)
  refine ⟨fun name v hlookup => ?_, fun name hlookup => ?_⟩
  · refine h.present name v ((lookup_eq_some_iff hnodup).mpr (List.mem_append_left _ ?_))
    exact (lookup_eq_some_iff hr).mp hlookup
  · rcases hfull : List.lookup name (r ++ nils) with _ | v
    · exact h.absent name hfull
    · -- The name is one of an option that is nil, since no field has it.
      have hv : v = .nil := by
        rcases List.mem_append.mp ((lookup_eq_some_iff hnodup).mp hfull) with hmem | hmem
        · exact absurd (List.mem_map_of_mem hmem) (lookup_eq_none_iff.mp hlookup)
        · exact hnils _ hmem
      obtain ⟨u, hu, hsays⟩ := h.present name v hfull
      subst hv
      cases hsays
      exact .inr hu

/-- **Whoever knows the first names finds what the record says**, in any presentation of it. -/
theorem ofValue?_presents {options : List String} {entries : List (Value × Value)}
    (hnames : names.Nodup) (hknown : known <+: names) (hr : (r.map Prod.fst).Nodup)
    (h : Presents names options r entries) :
    ∃ w, ofValue? known (.map entries) = some w ∧ w.Says (r.filter fun field => field.1 ∈ known) := by
  obtain ⟨w, taken, missing, hnamed, hperm, htaken, hmissing, habsent⟩ :=
    named?_presents hnames hknown h
  -- No name comes twice, neither among the fields nor among the options that are nil.
  have hfull : ((r ++ missing.map fun name => (name, Value.nil)).map Prod.fst).Nodup := by
    rw [List.map_append, List.map_map, List.nodup_append]
    refine ⟨hr, (List.map_id missing).symm ▸ hmissing, fun a ha b hb heq => ?_⟩
    obtain ⟨name, hname, rfl⟩ := List.mem_map.mp hb
    subst heq
    exact habsent _ hname ha
  have hkept := hfull.sublist
    (List.filter_sublist (p := fun field => decide (field.1 ∈ known)).map Prod.fst)
  obtain ⟨hnodup, hsays⟩ := says_of_perm hkept hperm htaken
  rw [List.filter_append] at hkept hsays
  refine ⟨w, ?_, hsays.of_nils hkept fun field hfield => ?_⟩
  · rw [ofValue?, hnamed]
    exact Option.bind_eq_some_iff.mpr ⟨w, rfl,
      Option.bind_eq_some_iff.mpr ⟨(), if_pos hnodup, rfl⟩⟩
  · obtain ⟨name, -, rfl⟩ := List.mem_map.mp (List.mem_filter.mp hfield).1
    rfl

/-- **So a record is read from any presentation of it**, in any spelling and with anything behind it. -/
theorem read?_presents {options : List String} {entries : List (Value × Value)} {form : Bytes}
    (hnames : names.Nodup) (hknown : known <+: names) (hr : (r.map Prod.fst).Nodup)
    (h : Presents names options r entries) (hform : (Value.map entries).Spelled maxLevels form)
    (rest : Bytes) :
    ∃ w, read? known (form ++ rest) = some w ∧ w.Says (r.filter fun field => field.1 ∈ known) := by
  obtain ⟨w, hw, hsays⟩ := ofValue?_presents hnames hknown hr h
  refine ⟨w, ?_, hsays⟩
  rw [read?, MessagePack.read?, readWithin_spelled hform, Option.map_some, Option.bind_some, hw]

end Record

end Rendezvous.MessagePack
