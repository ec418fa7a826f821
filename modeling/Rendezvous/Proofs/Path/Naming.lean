import Rendezvous.Proofs.Bytes.Hex
import Rendezvous.Proofs.MessagePack.Records
import Rendezvous.Proofs.Path.Succession
import Rendezvous.Upgrade

/-!
# Requests name paths

The target of a request names a path by the digits of its key. It is read in three layers, each with a form of
its own: the text as characters, its bytes, and the key that their digits are; in the end the registry writes
the key in digits again. What matters is the lower-case form of the text, which is the same through all of them.

* **`Upgrade.pathKey?_eq_some_iff`** — a text names a key exactly if its lower-case form is a slash and the
  digits of the key.
* **`Upgrade.exists_pathKey?_iff`** — which texts name a key.
* **`Registry.lookup_run`** — a key keeps its path as long as no path is pruned.
* **`Upgrade.requests_name_paths`** — two requests get the same path exactly if they differ in the case of
  letters at most.
-/

namespace Rendezvous

open Hex (digitValue? lower)

theorem PublicKey.length_of_decode {text : Bytes} {key : PublicKey} (h : Hex.decode text = .ok key.bytes) :
    text.length = 64 := by
  rw [Hex.length_of_decode h, PublicKey.bytes, key.octets.length_toList]

theorem PublicKey.ofHex_eq_ok_iff {text : String} {key : PublicKey} :
    ofHex text = .ok key ↔ Hex.decode (Text.utf8 text) = .ok key.bytes := by
  simp only [ofHex]
  split
  · cases hread : Hex.decode (Text.utf8 text) with
    | error e => simp
    | ok bytes =>
      simp only [Except.ok.injEq, ← ofBytes?_eq_some_iff]
      cases ofBytes? bytes <;> simp
  · next hother => exact iff_of_false nofun fun h => hother (PublicKey.length_of_decode h)

namespace Upgrade

variable {text : String} {key : PublicKey} {digits : Bytes}

/-! ## Names in bytes -/

theorem slash_hex (key : PublicKey) : "/" ++ key.hex = Text.ofAscii (0x2f :: Hex.encodeDigits key.bytes) := by
  apply String.ext
  simp only [String.toList_append, PublicKey.hex, Hex.encode, Text.ofAscii, String.toList_ofList]
  rfl

/-- A text names a key if it is a slash and the digits of the key, in any case. -/
theorem pathKey?_eq_some_iff_digits : pathKey? text = some key ↔
    ∃ digits, text = Text.ofAscii (0x2f :: digits) ∧ digits.map lower = Hex.encodeDigits key.bytes := by
  constructor
  · intro h
    unfold pathKey? at h
    split at h
    · next rest htext =>
      obtain ⟨⟨-, hdigits⟩, hread⟩ := Option.ite_none_right_eq_some.mp h
      rw [toOption_eq_some_iff, PublicKey.ofHex_eq_ok_iff] at hread
      -- The bytes are digits, so they are in ASCII and the text is what they are.
      have hascii : ∀ b ∈ Text.utf8 (String.ofList rest), b < 0x80 := fun b hb =>
        Hex.lt_of_isDigit (List.all_eq_true.mp hdigits b hb)
      have hrest : String.ofList rest = Text.ofAscii (Text.utf8 (String.ofList rest)) :=
        Text.utf8_inj.mp (Text.utf8_ofAscii hascii).symm
      refine ⟨Text.utf8 (String.ofList rest), String.ext ?_, Hex.decode_eq_ok_iff.mp hread⟩
      rw [htext, Text.ofAscii, String.toList_ofList, List.map_cons]
      exact congrArg ('/' :: ·) (String.ofList_injective hrest)
    · cases h
  · rintro ⟨digits, rfl, hwritten⟩
    have hread : Hex.decode digits = .ok key.bytes := Hex.decode_eq_ok_iff.mpr hwritten
    have hdigits := Hex.isDigit_of_decode hread
    have hutf8 : Text.utf8 (Text.ofAscii digits) = digits :=
      Text.utf8_ofAscii fun b hb => Hex.lt_of_isDigit (hdigits b hb)
    have hlength : digits.length = 64 := PublicKey.length_of_decode hread
    have hkey : PublicKey.ofHex (Text.ofAscii digits) = .ok key := by
      rw [PublicKey.ofHex_eq_ok_iff, hutf8, hread]
    have hlist : (Text.ofAscii (0x2f :: digits)).toList = '/' :: digits.map fun b => Char.ofNat b.toNat :=
      String.toList_ofList
    have hcheck : digits.all (fun b => (digitValue? b).isSome) = true := List.all_eq_true.mpr hdigits
    unfold pathKey?
    rw [hlist]
    show (if (Text.utf8 (Text.ofAscii digits)).length = 64 ∧ (Text.utf8 (Text.ofAscii digits)).all _ = true
      then (PublicKey.ofHex (Text.ofAscii digits)).toOption else none) = _
    rw [hutf8, hkey, if_pos ⟨hlength, hcheck⟩]
    rfl

/-! ## Names in any case -/

/-- A text names a key exactly if its lower-case form is a slash and the digits of the key. -/
theorem pathKey?_eq_some_iff : pathKey? text = some key ↔ text.toLower = "/" ++ key.hex := by
  have hslash : ∀ b, lower b = 0x2f ↔ b = 0x2f := fun b => by
    simp only [← UInt8.toNat_inj, Hex.toNat_lower, UInt8.reduceToNat]
    split <;> omega
  have hascii : ∀ b ∈ 0x2f :: Hex.encodeDigits key.bytes, b < 0x80 :=
    List.forall_mem_cons.mpr ⟨by decide, Hex.lt_of_mem_encodeDigits⟩
  rw [pathKey?_eq_some_iff_digits, slash_hex]
  constructor
  · rintro ⟨digits, rfl, hwritten⟩
    have hdigits := Hex.isDigit_of_decode (Hex.decode_eq_ok_iff.mpr hwritten)
    rw [Text.toLower_ofAscii (List.forall_mem_cons.mpr ⟨by decide, fun b hb => Hex.lt_of_isDigit (hdigits b hb)⟩),
      List.map_cons, hwritten, (hslash 0x2f).mpr rfl]
  · intro h
    obtain ⟨bytes, rfl, hbytes⟩ := Text.exists_ofAscii_of_toLower hascii h
    obtain ⟨b, digits, rfl, hb, hdigits⟩ := List.map_eq_cons_iff.mp hbytes
    exact ⟨digits, by rw [(hslash b).mp hb], hdigits⟩

/-- A text names a key exactly if it is a slash and 64 digits. -/
theorem exists_pathKey?_iff : (∃ key, pathKey? text = some key) ↔
    ∃ digits, text.toList = '/' :: digits ∧ digits.length = 64 ∧ ∀ c ∈ digits, Text.IsHexDigit c := by
  constructor
  · rintro ⟨key, h⟩
    obtain ⟨digits, rfl, hwritten⟩ := pathKey?_eq_some_iff_digits.mp h
    have hread : Hex.decode digits = .ok key.bytes := Hex.decode_eq_ok_iff.mpr hwritten
    have hdigits := Hex.isDigit_of_decode hread
    refine ⟨_, String.toList_ofList, ?_, fun c hc => ?_⟩
    · rw [List.length_map, PublicKey.length_of_decode hread]
    · obtain ⟨b, hb, rfl⟩ := List.mem_map.mp hc
      exact (Text.isHexDigit_ofNat (Hex.lt_of_isDigit (hdigits b hb))).mpr (hdigits b hb)
  · rintro ⟨cs, htext, hlength, hcs⟩
    have hlt : ∀ c ∈ cs, c.toNat < 128 := fun c hc => by
      have hdigit := Text.isHexDigit_iff.mp (hcs c hc)
      omega
    obtain ⟨digits, hascii, rfl⟩ := Text.exists_map_of_lt hlt
    have hdigits : ∀ b ∈ digits, (digitValue? b).isSome = true := fun b hb =>
      (Text.isHexDigit_ofNat (hascii b hb)).mp (hcs _ (List.mem_map_of_mem hb))
    rw [List.length_map] at hlength
    obtain ⟨bytes, hread⟩ := Hex.exists_decode (by omega) hdigits
    have hsize : bytes.length = 32 := by
      have hread := Hex.length_of_decode hread
      omega
    refine ⟨⟨⟨bytes, hsize⟩⟩, pathKey?_eq_some_iff_digits.mpr ⟨digits, String.ext ?_, Hex.decode_eq_ok_iff.mp hread⟩⟩
    rw [htext, Text.ofAscii, String.toList_ofList]
    rfl

theorem pathKey?_slash_hex (key : PublicKey) : pathKey? ("/" ++ key.hex) = some key := by
  refine pathKey?_eq_some_iff_digits.mpr ⟨Hex.encodeDigits key.bytes, slash_hex key, ?_⟩
  exact Hex.decode_eq_ok_iff.mp (Hex.decode_encodeDigits key.bytes)

/-- Two texts name the same key exactly if they differ in the case of letters at most. -/
theorem pathKey?_inj {text' : String} {key' : PublicKey} (h : pathKey? text = some key)
    (h' : pathKey? text' = some key') : key' = key ↔ text'.toLower = text.toLower := by
  rw [pathKey?_eq_some_iff.mp h, pathKey?_eq_some_iff.mp h', ← PublicKey.hex_inj]
  constructor
  · intro heq
    rw [heq]
  · intro heq
    have hlist := congrArg String.toList heq
    rw [String.toList_append, String.toList_append] at hlist
    exact String.ext (List.append_cancel_left hlist)

end Upgrade

/-! ## Names and the registry -/

namespace Registry

variable {α : Type u} {r : Registry α} {key : PublicKey} {id : PathId}

/-- A key keeps its path as long as no path is pruned. -/
theorem lookup_perform_of_ne_prune (h : r.live.lookup key = some id) (op : Operation α)
    (hop : ∀ id, op ≠ .prune id) : (r.perform op).live.lookup key = some id := by
  cases op with
  | getOrCreate key' =>
    show (r.getOrCreate key').2.live.lookup key = some id
    rcases getOrCreate_cases r key' with ⟨id', -, heq⟩ | ⟨hnone, heq⟩
    · rwa [heq]
    · have hne : key ≠ key' := fun hsame => by
        rw [← hsame, h] at hnone
        cases hnone
      rwa [heq, List.lookup_cons, beq_false_of_ne hne]
  | prune id' => exact absurd rfl (hop id')
  | _ => exact h

theorem lookup_run (h : r.live.lookup key = some id) {operations : List (Operation α)}
    (hkept : ∀ id, .prune id ∉ operations) : (r.run operations).live.lookup key = some id := by
  induction operations generalizing r with
  | nil => exact h
  | cons op rest ih =>
    refine ih (lookup_perform_of_ne_prune h op fun id heq => hkept id ?_) fun id hmem => hkept id ?_
    · exact heq ▸ List.mem_cons_self
    · exact List.mem_cons_of_mem _ hmem

theorem Sound.run (h : r.Sound) (operations : List (Operation α)) : (r.run operations).Sound := by
  induction operations generalizing r with
  | nil => exact h
  | cons op rest ih => exact ih (h.perform op)

/-- What is registered under two keys is one path only if the keys are the same. -/
theorem Sound.key_unique (h : r.Sound) {key' : PublicKey} (hkey : r.live.lookup key = some id)
    (hkey' : r.live.lookup key' = some id) : key' = key := by
  obtain ⟨p, hp, rfl, -⟩ := h.path_of_lookup hkey
  obtain ⟨p', hp', rfl, -⟩ := h.path_of_lookup hkey'
  cases hp.symm.trans hp'
  rfl

/-- Who asks for a path twice gets the same one exactly if it is by the same key, unless a path is pruned in
between. -/
theorem Sound.getOrCreate_eq_iff (h : r.Sound) (key key' : PublicKey) {between : List (Operation α)}
    (hkept : ∀ id, .prune id ∉ between) :
    (((r.getOrCreate key).2.run between).getOrCreate key').1 = (r.getOrCreate key).1 ↔ key' = key := by
  have hfirst := lookup_run (lookup_getOrCreate r key) hkept
  have hsound := ((h.getOrCreate key).run between).getOrCreate key'
  have hsecond := lookup_getOrCreate ((r.getOrCreate key).2.run between) key'
  constructor
  · intro heq
    rw [heq] at hsecond
    exact hsound.key_unique (lookup_perform_of_ne_prune hfirst (.getOrCreate key') nofun) hsecond
  · rintro rfl
    have hkeeps := lookup_perform_of_ne_prune hfirst (.getOrCreate key') nofun
    exact Option.some.inj (hsecond.symm.trans hkeeps)

/-- What is registered under a key is a path of that key, and is found by its digits. -/
theorem Sound.exists_path (h : r.Sound) (hlookup : r.live.lookup key = some id) :
    ∃ p, r.path? id = some p ∧ p.key = key ∧ r.find? p.key.hex = some id := by
  obtain ⟨p, hp, hkey, -⟩ := h.path_of_lookup hlookup
  exact ⟨p, hp, hkey, by rw [hkey, find?_hex, hlookup]⟩

end Registry

/-- **Requests name paths by the digits of their keys, in any case.** A text names a key exactly if it is a slash
and 64 digits behind it, and every key is named. If paths are asked for by two texts, one after the other and
with no pruning in between, they are the same path exactly if the texts are the same in lower case; and then
each is known by the digits of its text in lower case, and found by them. -/
theorem Upgrade.requests_name_paths :
    (∀ text, (∃ key, pathKey? text = some key) ↔
      ∃ digits, text.toList = '/' :: digits ∧ digits.length = 64 ∧ ∀ c ∈ digits, Text.IsHexDigit c) ∧
    (∀ key, ∃ text, pathKey? text = some key) ∧
    ∀ (operations between : List (Registry.Operation α)) (text text' : String) (key key' : PublicKey),
      pathKey? text = some key → pathKey? text' = some key' → (∀ id, .prune id ∉ between) →
      let first := ((Registry.empty : Registry α).run operations).getOrCreate key
      let second := (first.2.run between).getOrCreate key'
      (second.1 = first.1 ↔ text'.toLower = text.toLower) ∧
      (∃ p, second.2.path? first.1 = some p ∧ "/" ++ p.key.hex = text.toLower ∧
        second.2.find? p.key.hex = some first.1) ∧
      ∃ p, second.2.path? second.1 = some p ∧ "/" ++ p.key.hex = text'.toLower ∧
        second.2.find? p.key.hex = some second.1 := by
  refine ⟨fun text => exists_pathKey?_iff, fun key => ⟨_, pathKey?_slash_hex key⟩, ?_⟩
  intro operations between text text' key key' hkey hkey' hkept first second
  have hsound : ((Registry.empty : Registry α).run operations).Sound := Registry.sound_empty.run operations
  have hafter : second.2.Sound := ((hsound.getOrCreate key).run between).getOrCreate key'
  have hfirst : second.2.live.lookup key = some first.1 :=
    Registry.lookup_perform_of_ne_prune (Registry.lookup_run (Registry.lookup_getOrCreate _ key) hkept)
      (.getOrCreate key') nofun
  have hsecond : second.2.live.lookup key' = some second.1 := Registry.lookup_getOrCreate _ key'
  refine ⟨(hsound.getOrCreate_eq_iff key key' hkept).trans (pathKey?_inj hkey hkey'), ?_, ?_⟩
  · obtain ⟨p, hp, hpkey, hfound⟩ := hafter.exists_path hfirst
    exact ⟨p, hp, by rw [hpkey, pathKey?_eq_some_iff.mp hkey], hfound⟩
  · obtain ⟨p, hp, hpkey, hfound⟩ := hafter.exists_path hsecond
    exact ⟨p, hp, by rw [hpkey, pathKey?_eq_some_iff.mp hkey'], hfound⟩

/-- Two requests for one path, the first of which shouts, with another path created in between. -/
theorem Upgrade.requests_name_paths_shouted :
    let key : PublicKey := ⟨⟨List.replicate 32 0xff, rfl⟩⟩
    let other : PublicKey := ⟨.fit []⟩
    let text := "/" ++ String.ofList (List.replicate 64 'F')
    let text' := "/" ++ key.hex
    let first := ((Registry.empty : Registry Nat).run [.getOrCreate other, .prune ⟨0⟩]).getOrCreate key
    let second := (first.2.run [.getOrCreate other]).getOrCreate key
    pathKey? text = some key ∧ pathKey? text' = some key ∧
    (∀ id, .prune id ∉ ([.getOrCreate other] : List (Registry.Operation Nat))) ∧
    (second.1 = first.1 ↔ text'.toLower = text.toLower) ∧
    ∃ p, second.2.path? first.1 = some p ∧ "/" ++ p.key.hex = text' ∧
      second.2.find? p.key.hex = some first.1 := by
  intro key other text text' first second
  have hkey : pathKey? text = some key :=
    pathKey?_eq_some_iff_digits.mpr ⟨List.replicate 64 0x46, rfl, rfl⟩
  have hkey' : pathKey? text' = some key := pathKey?_slash_hex key
  have hlower : text.toLower = text' := pathKey?_eq_some_iff.mp hkey
  have hkept : ∀ id, .prune id ∉ ([.getOrCreate other] : List (Registry.Operation Nat)) := by
    simp
  obtain ⟨hsame, hpath, -⟩ := requests_name_paths.2.2 [.getOrCreate other, .prune ⟨0⟩]
    [.getOrCreate other] text text' key key hkey hkey' hkept
  rw [hlower] at hpath
  exact ⟨hkey, hkey', hkept, hsame, hpath⟩

end Rendezvous
