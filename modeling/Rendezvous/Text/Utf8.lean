import Rendezvous.Bytes.Octets

/-!
Texts as byte strings in UTF-8. A byte string is read exactly if it is the form of a text
(`ofUtf8?_eq_some_iff`).
-/

namespace Rendezvous.Text

def utf8 (s : String) : Bytes :=
  s.toByteArray.data.toList

def ofUtf8? (bytes : Bytes) : Option String :=
  String.fromUTF8? ⟨bytes.toArray⟩

theorem ofUtf8?_eq_some_iff {bytes : Bytes} {s : String} :
    ofUtf8? bytes = some s ↔ bytes = utf8 s := by
  constructor
  · intro h
    unfold ofUtf8? String.fromUTF8? at h
    split at h
    · cases h
      simp [utf8, String.fromUTF8]
    · contradiction
  · rintro rfl
    cases s with
    | ofByteArray b hb => simp [ofUtf8?, String.fromUTF8?, utf8, String.fromUTF8, hb]

theorem ofUtf8?_utf8 (s : String) : ofUtf8? (utf8 s) = some s :=
  ofUtf8?_eq_some_iff.mpr rfl

end Rendezvous.Text
