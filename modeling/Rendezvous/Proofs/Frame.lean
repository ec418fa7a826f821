import Rendezvous.Frame
import Rendezvous.Proofs.Bytes.Endian
import Rendezvous.Proofs.Results

/-!
# Headers in bytes

The header that is read from a frame is the one that was laid out at its start, and its nonce is the
bytes that lie there.
-/

namespace Rendezvous

namespace SequenceNumber

/-- A number is read back from its two halves, the last one too. -/
theorem ofOctets_layout (n : SequenceNumber) : ofOctets n.layout = n := by
  have ho := n.overflow.toNat_lt
  have hs := n.sequence.toNat_lt
  unfold ofOctets layout
  simp only [List.take_left', List.drop_left', BigEndian.length_encode, BigEndian.decode_encode]
  rw [Nat.mod_eq_of_lt (show n.overflow.toNat < 256 ^ 2 from ho),
    Nat.mod_eq_of_lt (show n.sequence.toNat < 256 ^ 4 from hs), UInt16.ofNat_toNat, UInt32.ofNat_toNat]

/-- A number that was written is read back. -/
theorem ofOctets_of_toOctets {n : SequenceNumber} {octets : Octets 6} (h : n.toOctets = .ok octets) :
    ofOctets octets = n := by
  unfold toOctets at h
  split at h
  · cases h
  · cases h
    exact ofOctets_layout n

/-- The two halves side by side are read as the value. -/
theorem decode_layout (n : SequenceNumber) : BigEndian.decode n.layout.toList = n.combined := by
  have ho := n.overflow.toNat_lt
  have hs := n.sequence.toNat_lt
  have hhigh : BigEndian.decode (BigEndian.encode 2 n.overflow.toNat) = n.overflow.toNat := by
    rw [BigEndian.decode_encode]
    exact Nat.mod_eq_of_lt ho
  have hlow : BigEndian.decode (BigEndian.encode 4 n.sequence.toNat) = n.sequence.toNat := by
    rw [BigEndian.decode_encode]
    exact Nat.mod_eq_of_lt hs
  show BigEndian.decode (BigEndian.encode 2 n.overflow.toNat ++ BigEndian.encode 4 n.sequence.toNat) = _
  rw [BigEndian.decode_append, hhigh, hlow, BigEndian.length_encode]
  rfl

/-- The two halves side by side are the bytes of the value. -/
theorem toList_layout (n : SequenceNumber) : n.layout.toList = BigEndian.encode 6 n.combined := by
  have hencode := BigEndian.encode_decode n.layout.toList
  rw [n.layout.length_toList, decode_layout] at hencode
  exact hencode.symm

/-- A number that has a successor is not the last one. -/
theorem isSentinel_of_next {n m : SequenceNumber} (h : n.next = .ok m) : n.isSentinel = false := by
  rw [← Bool.not_eq_true]
  intro hs
  rw [next_sentinel hs] at h
  cases h

/-- A number that has not wrapped has a successor. -/
theorem next_of_combined_lt {n : SequenceNumber} (h : n.combined < 0xffffffffffff) :
    ∃ m, n.next = .ok m ∧ m.combined = n.combined + 1 := by
  have hs : n.isSentinel = false := by
    rw [← Bool.not_eq_true, isSentinel_iff]
    omega
  obtain ⟨m, hnext⟩ := next_eq_ok hs
  exact ⟨m, hnext, combined_of_next hnext⟩

theorem combined_of_overflow {n : SequenceNumber} (h : n.overflow = 0) : n.combined < 0x100000000 := by
  have hs := n.sequence.toNat_lt
  have ho : n.overflow.toNat = 0 := by rw [h]; rfl
  unfold combined
  omega

/-- What is read lies there as it was. -/
theorem layout_ofOctets (octets : Octets 6) : (ofOctets octets).layout = octets := by
  obtain ⟨bytes, hlength⟩ := octets
  have hhigh : (bytes.take 2).length = 2 := by simp [hlength]
  have hlow : (bytes.drop 2).length = 4 := by simp [hlength]
  have hoverflow := BigEndian.decode_lt (bytes.take 2)
  have hsequence := BigEndian.decode_lt (bytes.drop 2)
  rw [hhigh, show 256 ^ 2 = 2 ^ 16 from rfl] at hoverflow
  rw [hlow, show 256 ^ 4 = 2 ^ 32 from rfl] at hsequence
  apply Octets.ext_toList
  show BigEndian.encode 2 (UInt16.ofNat (BigEndian.decode (bytes.take 2))).toNat ++
    BigEndian.encode 4 (UInt32.ofNat (BigEndian.decode (bytes.drop 2))).toNat = bytes
  rw [UInt16.toNat_ofNat', UInt32.toNat_ofNat', Nat.mod_eq_of_lt hoverflow,
    Nat.mod_eq_of_lt hsequence]
  have hencode := BigEndian.encode_decode (bytes.take 2)
  have hencode' := BigEndian.encode_decode (bytes.drop 2)
  rw [hhigh] at hencode
  rw [hlow] at hencode'
  rw [hencode, hencode', List.take_append_drop]

end SequenceNumber

namespace Header

theorem parse_append (octets : Octets 24) (payload : Bytes) :
    parse (octets.toList ++ payload) = .ok (ofOctets octets) := by
  have htake : (octets.toList ++ payload).take 24 = octets.toList := by
    rw [List.take_append_of_le_length (Nat.le_of_eq octets.length_toList.symm),
      List.take_of_length_le (Nat.le_of_eq octets.length_toList)]
  rw [parse, htake, Octets.ofList?_toList]

/-- All of a header but its number lies in front of the number. -/
theorem ofOctets_layout (h : Header) (number : Octets 6) :
    ofOctets (h.layout number) = { h with number := .ofOctets number } := by
  obtain ⟨⟨⟨cookie, hcookie⟩⟩, source, destination, n⟩ := h
  obtain ⟨number, hnumber⟩ := number
  have hdestination : (cookie ++ source.value :: destination.value :: number)[17]? =
      some destination.value := by
    rw [List.getElem?_append_right (by omega)]
    simp [hcookie]
  have hrest : cookie.drop 18 = [] := List.drop_eq_nil_of_le (by omega)
  simp [ofOctets, layout, Octets.append, Octets.take, Octets.drop, hcookie, hdestination,
    List.drop_append, hrest]

theorem layout_of_toOctets {h : Header} {octets : Octets 24} (ho : h.toOctets = .ok octets) :
    ∃ number, octets = h.layout number := by
  unfold toOctets at ho
  cases hn : h.number.toOctets with
  | error e =>
    rw [hn] at ho
    cases ho
  | ok number =>
    rw [hn] at ho
    cases ho
    exact ⟨number, rfl⟩

theorem ofOctets_of_toOctets {h : Header} {octets : Octets 24} (ho : h.toOctets = .ok octets) :
    ofOctets octets = h := by
  unfold toOctets at ho
  cases hn : h.number.toOctets with
  | error e =>
    rw [hn] at ho
    cases ho
  | ok number =>
    rw [hn] at ho
    cases ho
    rw [ofOctets_layout, SequenceNumber.ofOctets_of_toOctets hn]

/-- The nonce of a frame is what lies at its start, whatever its number is. -/
theorem nonce_ofOctets (octets : Octets 24) : (ofOctets octets).nonce = octets := by
  obtain ⟨bytes, hlength⟩ := octets
  apply Octets.ext_toList
  have h16 : 16 < bytes.length := by omega
  have h17 : 17 < bytes.length := by omega
  have hsplit : bytes = bytes.take 16 ++ [bytes[16], bytes[17]] ++ bytes.drop 18 := by
    rw [List.append_assoc, List.cons_append, List.cons_append, List.nil_append,
      List.getElem_cons_drop, List.getElem_cons_drop, List.take_append_drop]
  show bytes.take 16 ++ [bytes.getD 16 0, bytes.getD 17 0] ++
    (SequenceNumber.ofOctets ⟨bytes.drop 18, _⟩).layout.toList = bytes
  rw [SequenceNumber.layout_ofOctets, List.getD_eq_getElem?_getD, List.getD_eq_getElem?_getD,
    List.getElem?_eq_getElem h16, List.getElem?_eq_getElem h17]
  exact hsplit.symm

/-- A header can be sent, unless its number is the last one. -/
theorem toOctets_ok {h : Header} (hnumber : h.number.isSentinel = false) :
    ∃ octets, h.toOctets = .ok octets := by
  have hsentinel : ¬ h.number.isSentinel = true := by simp [hnumber]
  refine ⟨h.nonce, ?_⟩
  unfold toOctets SequenceNumber.toOctets
  rw [if_neg hsentinel]
  rfl

/-- The bytes that are sent are the nonce. -/
theorem nonce_of_toOctets {h : Header} {octets : Octets 24} (ho : h.toOctets = .ok octets) :
    h.nonce = octets := by
  rw [← ofOctets_of_toOctets ho, nonce_ofOctets]

theorem parse_eq_ok {bytes : Bytes} {h : Header} :
    parse bytes = .ok h ↔ ∃ octets : Octets 24, bytes.take 24 = octets.toList ∧ h = ofOctets octets := by
  unfold parse
  split
  · next octets heq =>
    have htake := Octets.ofList?_eq_some_iff.mp heq
    constructor
    · intro h
      cases h
      exact ⟨octets, htake, rfl⟩
    · rintro ⟨octets', htake', rfl⟩
      rw [Octets.ext_toList (htake.symm.trans htake')]
  · next hnone =>
    constructor
    · intro h
      cases h
    · rintro ⟨octets, htake, -⟩
      rw [htake, Octets.ofList?_toList] at hnone
      cases hnone

theorem parse_take (bytes : Bytes) {h : Header} :
    parse (bytes.take 24) = .ok h ↔ parse bytes = .ok h := by
  rw [parse_eq_ok, parse_eq_ok, List.take_take, Nat.min_self]

/-- The nonce of a frame is its first 24 bytes. -/
theorem nonce_of_parse {bytes : Bytes} {h : Header} (hparse : parse bytes = .ok h) :
    h.nonce.toList = bytes.take 24 := by
  obtain ⟨octets, htake, rfl⟩ := parse_eq_ok.mp hparse
  rw [nonce_ofOctets, htake]

end Header

namespace Frame

/-- A frame is a header and at least one byte behind it. -/
theorem parse_eq_ok {bytes : Bytes} {f : Frame} :
    parse bytes = .ok f ↔
      25 ≤ bytes.length ∧ Header.parse bytes = .ok f.header ∧ f.payload = bytes.drop 24 := by
  unfold parse
  split
  · next hshort =>
    constructor
    · intro h
      cases h
    · rintro ⟨hlength, -⟩
      omega
  · next hlength =>
    rw [bind_eq_ok]
    constructor
    · rintro ⟨header, hheader, h⟩
      rw [pure_eq_ok.mp h]
      exact ⟨Nat.le_of_not_lt hlength, hheader, rfl⟩
    · rintro ⟨-, hheader, hpayload⟩
      exact ⟨f.header, hheader, pure_eq_ok.mpr (by rw [← hpayload])⟩

theorem header_of_parse {bytes : Bytes} {f : Frame} (h : parse bytes = .ok f) :
    Header.parse bytes = .ok f.header :=
  (parse_eq_ok.mp h).2.1

/-- A frame that was put together is taken apart again. -/
theorem parse_append {h : Header} {octets : Octets 24} {payload : Bytes}
    (ho : h.toOctets = .ok octets) (hpayload : payload ≠ []) :
    parse (octets.toList ++ payload) = .ok ⟨h, payload⟩ := by
  have hlength : 0 < payload.length := List.length_pos_iff.mpr hpayload
  have hsize : ¬ (octets.toList ++ payload).length < 25 := by
    rw [List.length_append, octets.length_toList]
    omega
  have hdrop : (octets.toList ++ payload).drop 24 = payload :=
    List.drop_left' octets.length_toList
  unfold parse
  rw [if_neg hsize, Header.parse_append, hdrop, Header.ofOctets_of_toOctets ho]
  rfl

end Frame

end Rendezvous
