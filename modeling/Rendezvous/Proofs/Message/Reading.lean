import Rendezvous.Message.Reading
import Rendezvous.Proofs.Results

/-!
# What reading gives

A payload that is read as a message of a kind gives a message of that kind. So no payload is read as a
frame from one client to another. Whoever is to be dropped is named by a responder's address.
-/

namespace Rendezvous

/-- A payload of a kind is read if it names this kind, and all its values have their shape. -/
theorem MessageType.readFields_eq_ok {α : Type} {t : MessageType} {plain : Bytes}
    {read : MessagePack.Record → Option α} {a : α} :
    t.readFields plain read = .ok a ↔ ∃ r, MessagePack.Record.read? t.fields plain = some r ∧
      r.required? "type" MessagePack.Value.toText? = some t.name ∧ read r = some a := by
  unfold readFields
  rw [bind_eq_ok]
  constructor
  · rintro ⟨⟨name, fields⟩, hshaped, h⟩
    dsimp only at h
    split at h
    · next hname =>
      cases pure_eq_ok.mp h
      subst hname
      unfold shaped at hshaped
      split at hshaped
      · next hread =>
        cases hshaped
        simp only [Option.bind_eq_bind, Option.bind_eq_some_iff, Option.pure_def,
          Option.some.injEq, Prod.mk.injEq] at hread
        obtain ⟨r, hr, name, hname, fields, hfields, rfl, rfl⟩ := hread
        exact ⟨r, hr, hname, hfields⟩
      · cases hshaped
    · cases h
  · rintro ⟨r, hr, hname, hfields⟩
    refine ⟨(t.name, a), ?_, if_pos rfl⟩
    simp only [hr, Option.bind_eq_bind, Option.bind_some, hname, hfields]
    rfl

/-- **Reading keeps the kind.** -/
theorem MessageType.type?_of_read {t : MessageType} {plain : Bytes} {m : Message}
    (h : t.read plain = .ok m) : m.type? = some t := by
  cases t with
  | newResponder =>
    obtain ⟨id, -, h⟩ := bind_eq_ok.mp h
    obtain ⟨address, -, rfl⟩ := map_eq_ok.mp h
    rfl
  | dropResponder =>
    obtain ⟨⟨id, code⟩, -, h⟩ := bind_eq_ok.mp h
    obtain ⟨address, -, h⟩ := bind_eq_ok.mp h
    dsimp only at h
    split at h
    · rw [pure_eq_ok.mp h]
      rfl
    · obtain ⟨reason, -, h⟩ := bind_eq_ok.mp h
      rw [pure_eq_ok.mp h]
      rfl
  | sendError =>
    obtain ⟨id, -, h⟩ := bind_eq_ok.mp h
    obtain ⟨octets, -, rfl⟩ := map_eq_ok.mp h
    rfl
  | disconnected =>
    obtain ⟨id, -, h⟩ := bind_eq_ok.mp h
    obtain ⟨address, -, rfl⟩ := map_eq_ok.mp h
    rfl
  | _ =>
    obtain ⟨a, -, rfl⟩ := map_eq_ok.mp h
    rfl

theorem Message.read_ne_raw {plain : Bytes} {m : Message} (h : Message.read plain = .ok m)
    (header : Header) (frame : Bytes) : m ≠ .raw header frame := by
  rintro rfl
  obtain ⟨name, -, h⟩ := bind_eq_ok.mp h
  split at h
  · next t _ => cases MessageType.type?_of_read h
  · cases h

theorem MessageType.accept_eq_ok {α : Type} {t : MessageType} {field : String} {a : Option α} {b : α} :
    t.accept field a = .ok b ↔ a = some b := by
  cases a <;> simp [accept]

theorem MessageType.isResponder_of_acceptResponder {t : MessageType} {id : UInt8} {a : Address}
    (h : t.acceptResponder id = .ok a) : a.isResponder = true := by
  obtain ⟨hresponder, heq⟩ := Option.ite_none_right_eq_some.mp (accept_eq_ok.mp h)
  cases heq
  exact hresponder

theorem Message.isResponder_of_read {plain : Bytes} {id : Address} {reason : Option CloseCode}
    (h : Message.read plain = .ok (.dropResponder id reason)) : id.isResponder = true := by
  obtain ⟨name, -, h⟩ := bind_eq_ok.mp h
  split at h
  · next t _ =>
    cases MessageType.type?_of_read h
    obtain ⟨⟨number, code⟩, -, h⟩ := bind_eq_ok.mp h
    obtain ⟨a, ha, h⟩ := bind_eq_ok.mp h
    have hresponder := MessageType.isResponder_of_acceptResponder ha
    dsimp only at h
    split at h
    · cases pure_eq_ok.mp h
      exact hresponder
    · obtain ⟨reason, -, h⟩ := bind_eq_ok.mp h
      cases pure_eq_ok.mp h
      exact hresponder
  · cases h

end Rendezvous
