import Mathlib.Logic.Function.Basic
import Rendezvous.Proofs.Frame

/-!
# Frames are exactly their bytes

A header is laid out to be sent, where the last sequence number is refused, and as a nonce, whatever its number
is. Both agree with reading, so they agree with each other.

* **`Header.ofOctets_nonce`** — what is read from a nonce is the header it was made of. That makes nonces
  of different headers different.
* **`Header.toOctets_eq`** — what is sent is the nonce, unless the number is the last one.
* **`SequenceNumber.isSentinel_iff_layout`** — the last number is the one whose bytes are all `0xff`.
* **`Frame.frames_exact`** — what was written is read back, and what was read is written back.
-/

namespace Rendezvous

namespace SequenceNumber

/-- The last number is the one whose bytes are all `0xff`. -/
theorem isSentinel_iff_layout {n : SequenceNumber} :
    n.isSentinel = true ↔ n.layout.toList = List.replicate 6 0xff := by
  have hlast : (⟨0xffff, 0xffffffff⟩ : SequenceNumber).layout.toList = List.replicate 6 0xff := by decide
  rw [← hlast, Octets.toList_inj]
  constructor
  · intro h
    have hn : n = ⟨0xffff, 0xffffffff⟩ := by
      cases n
      simpa [isSentinel] using h
    rw [hn]
  · intro h
    have hn := congrArg ofOctets h
    rw [ofOctets_layout, ofOctets_layout] at hn
    rw [hn]
    rfl

end SequenceNumber

namespace Header

variable {h : Header}

/-- A header is read back from its nonce. -/
theorem ofOctets_nonce (h : Header) : ofOctets h.nonce = h := by
  rw [nonce, ofOctets_layout, SequenceNumber.ofOctets_layout]

theorem nonce_injective : Function.Injective nonce :=
  Function.LeftInverse.injective ofOctets_nonce

/-- What is sent is the nonce, unless the number is the last one. -/
theorem toOctets_eq (h : Header) :
    h.toOctets = if h.number.isSentinel then .error .overflowSentinel else .ok h.nonce := by
  unfold toOctets SequenceNumber.toOctets
  split <;> rfl

/-- The bytes of the number are the last six of the nonce. -/
theorem drop_nonce (h : Header) : h.nonce.toList.drop 18 = h.number.layout.toList := by
  have hlength : (h.cookie.octets.append ⟨[h.source.value, h.destination.value], rfl⟩).toList.length = 18 :=
    Octets.length_toList _
  exact List.drop_left' hlength

end Header

namespace Frame

variable {f : Frame} {bytes : Bytes}

theorem toBytes_eq (f : Frame) : f.toBytes =
    if f.header.number.isSentinel then .error .overflowSentinel
    else .ok (f.header.nonce.toList ++ f.payload) := by
  unfold toBytes
  rw [Header.toOctets_eq]
  split <;> rfl

/-- What is long enough is a frame, and its nonce lies in front of its payload. -/
theorem exists_parse (h : 25 ≤ bytes.length) : ∃ header : Header,
    parse bytes = .ok ⟨header, bytes.drop 24⟩ ∧ header.nonce.toList = bytes.take 24 := by
  have hlength : (bytes.take 24).length = 24 := by
    rw [List.length_take]
    omega
  have hheader : Header.parse bytes = .ok (.ofOctets ⟨bytes.take 24, hlength⟩) :=
    Header.parse_eq_ok.mpr ⟨_, rfl, rfl⟩
  exact ⟨_, parse_eq_ok.mpr ⟨h, hheader, rfl⟩, Header.nonce_of_parse hheader⟩

theorem parse_short (h : bytes.length < 25) : parse bytes = .error (.frameTooShort bytes.length) := by
  unfold parse
  rw [if_pos h]

/-- A frame that can be sent is read back. -/
theorem parse_toBytes (hnumber : f.header.number.isSentinel = false) (hpayload : f.payload ≠ []) :
    ∃ bytes, f.toBytes = .ok bytes ∧ parse bytes = .ok f := by
  have hsend : f.header.toOctets = .ok f.header.nonce := by
    rw [Header.toOctets_eq, hnumber]
    rfl
  refine ⟨f.header.nonce.toList ++ f.payload, ?_, parse_append hsend hpayload⟩
  rw [toBytes_eq, hnumber]
  rfl

/-- What lies in front of a payload and behind it again is what was there. -/
theorem toBytes_of_nonce {header : Header} (h : header.nonce.toList = bytes.take 24) :
    toBytes ⟨header, bytes.drop 24⟩ =
      if (bytes.take 24).drop 18 = List.replicate 6 0xff then .error .overflowSentinel else .ok bytes := by
  have hnumber : header.number.isSentinel = true ↔ (bytes.take 24).drop 18 = List.replicate 6 0xff := by
    rw [SequenceNumber.isSentinel_iff_layout, ← header.drop_nonce, h]
  simp only [toBytes_eq, hnumber, h, List.take_append_drop]

/-- **Frames are exactly their bytes.** A frame whose number is not the last one and whose payload is not
empty is written, and what was written is read back as that frame. Every byte string of at least 25 bytes
is read as a frame: the payload are the bytes behind the first 24, those are the nonce, the name of the
frame are the last eight of them, and the frame is written back to the same bytes, or refused if the bytes
of its number are all `0xff`. Shorter byte strings are not frames. The bytes that are sent for a header are
its nonce, and different headers have different nonces. -/
theorem frames_exact :
    (∀ f : Frame, f.header.number.isSentinel = false → f.payload ≠ [] →
      ∃ bytes, f.toBytes = .ok bytes ∧ parse bytes = .ok f) ∧
    (∀ bytes : Bytes, 25 ≤ bytes.length → ∃ header : Header,
      parse bytes = .ok ⟨header, bytes.drop 24⟩ ∧
      header.nonce.toList = bytes.take 24 ∧
      header.frameId.toList = (bytes.take 24).drop 16 ∧
      toBytes ⟨header, bytes.drop 24⟩ =
        if (bytes.take 24).drop 18 = List.replicate 6 0xff then .error .overflowSentinel else .ok bytes) ∧
    (∀ bytes : Bytes, bytes.length < 25 → parse bytes = .error (.frameTooShort bytes.length)) ∧
    (∀ (h : Header) (octets : Octets 24), h.toOctets = .ok octets → h.nonce = octets) ∧
    ∀ g h : Header, g ≠ h → g.nonce ≠ h.nonce := by
  refine ⟨fun f => parse_toBytes, fun bytes hlength => ?_, fun bytes => parse_short,
    fun h octets => Header.nonce_of_toOctets, fun g h => Header.nonce_injective.ne⟩
  obtain ⟨header, hparse, hnonce⟩ := exists_parse hlength
  refine ⟨header, hparse, hnonce, ?_, toBytes_of_nonce hnonce⟩
  rw [← hnonce]
  rfl

/-- The number before the last one is still sent, the last one is only read. -/
theorem frames_exact_last :
    (SequenceNumber.isSentinel ⟨0xffff, 0xfffffffe⟩ = false ∧ ([0x80] : Bytes) ≠ [] ∧
      ∃ bytes, toBytes ⟨⟨⟨.fit []⟩, .initiator, .server, ⟨0xffff, 0xfffffffe⟩⟩, [0x80]⟩ = .ok bytes ∧
        parse bytes = .ok ⟨⟨⟨.fit []⟩, .initiator, .server, ⟨0xffff, 0xfffffffe⟩⟩, [0x80]⟩) ∧
    25 ≤ (List.replicate 24 0xff ++ [0x80] : Bytes).length ∧
    ∃ header, parse (List.replicate 24 0xff ++ [0x80]) = .ok ⟨header, [0x80]⟩ ∧
      toBytes ⟨header, [0x80]⟩ = .error .overflowSentinel := by
  refine ⟨⟨by decide, by decide, frames_exact.1 _ (by decide) (by decide)⟩, by decide, ?_⟩
  obtain ⟨header, hparse, -, -, hwrite⟩ :=
    frames_exact.2.1 (List.replicate 24 0xff ++ [0x80]) (by decide)
  exact ⟨header, hparse, hwrite.trans (if_pos (by decide))⟩

end Frame

end Rendezvous
