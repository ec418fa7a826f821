import Mathlib.Data.List.Perm.Subperm
import Rendezvous.Proofs.Relay.Stretches
import Rendezvous.Proofs.Relay.Views

/-!
# When the server answers

An admitted client that is still there gets its address and the server's answer, on the path that is
registered under its key by then. Nothing but used up numbers and a path that is full can prevent that.

* **`Relay.liveSlots`** — who has which address on the path that is registered under a key.
* **`Slots.Describes`** — what a newcomer is to be told about the other side.
* **`Relay.sendServerAuth_ok`** — the answer.
-/

namespace Rendezvous

namespace Slots

variable {α : Type} {s : Slots α}

/-- What a newcomer of some role is to be told about the other side of a path. -/
def Describes (s : Slots α) : Role → OtherSide → Prop
  | .initiator, .responders ids => ids.Pairwise (fun a b => a.value < b.value) ∧
    ∀ a, a ∈ ids ↔ a.isResponder = true ∧ (s.get a).isSome = true
  | .responder, .initiator connected => connected = (s.get .initiator).isSome
  | _, _ => False

/-- There are no more responders than addresses. -/
theorem Describes.length_le {role : Role} {ids : List Address} (h : s.Describes role (.responders ids)) :
    ids.length ≤ 254 := by
  cases role with
  | initiator =>
    obtain ⟨hascending, hmem⟩ := h
    have hnodup : ids.Nodup := hascending.imp fun {a b} hlt heq => by
      rw [heq] at hlt
      exact absurd hlt (UInt8.lt_irrefl _)
    have hsubset : ids ⊆ Address.responders := fun a ha =>
      (Address.mem_responders_iff a).mpr ((hmem a).mp ha).1
    have hle := (hnodup.subperm hsubset).length_le
    rwa [Address.responders, List.length_map, List.length_range'] at hle
  | responder => exact h.elim

end Slots

namespace Relay

variable {r s : Relay} {id : ClientId} {c : Client} {path : PathId}

/-- Who has an address on the newcomer's own side does not matter for what it is told. -/
theorem describes_otherSide {slots : Slots ClientId} {role : Role} {address : Address}
    (hkind : address.kind = role.addressKind)
    (h : ∀ b, (r.slots path).get b = if b = address then some id else slots.get b) :
    slots.Describes role (r.otherSide path role) := by
  cases role with
  | initiator =>
    refine ⟨Slots.pairwise_responderIds _, fun a => ?_⟩
    rw [Slots.mem_responderIds_iff]
    refine and_congr_right fun hresponder => ?_
    have hne : a ≠ address := by
      rintro rfl
      rw [Address.isResponder_iff, hkind] at hresponder
      cases hresponder
    rw [h, if_neg hne]
  | responder =>
    have hne : Address.initiator ≠ address := by
      rintro rfl
      cases hkind
    show (r.slots path).initiator.isSome = _
    rw [Slots.initiator, h, if_neg hne]

/-! ## Live paths -/

/-- Who has which address on the path that is registered under a key. Where there is none, nobody has. -/
def liveSlots (r : Relay) (key : PublicKey) : Slots ClientId :=
  match r.registry.live.lookup key with
  | some path => r.slots path
  | none => .empty

/-- The path that a client joins is the one that is registered under its key, or becomes it. -/
theorem livePath_spec (hr : r.census.Coherent) (hc : r.client? id = some c) :
    (r.livePath c).2.registry.live.lookup c.initiatorKey = some (r.livePath c).1 ∧
      ∀ a, ((r.livePath c).2.slots (r.livePath c).1).get a = (r.liveSlots c.initiatorKey).get a := by
  rcases livePath_cases r c with ⟨heq, hlive⟩ | ⟨p, -, -, heq⟩
  · obtain ⟨p, hp, hkey⟩ := hr.onPath id _ (census_client? hc)
    have hlookup := hr.sound.lookup_of_path hr.complete hp (hlive p hp)
    rw [hkey] at hlookup
    rw [heq, liveSlots]
    replace hlookup : r.registry.live.lookup c.initiatorKey = some c.path := hlookup
    rw [hlookup]
    exact ⟨rfl, fun _ => rfl⟩
  · rw [heq]
    refine ⟨Registry.lookup_getOrCreate r.registry c.initiatorKey, fun a => ?_⟩
    rw [sameSlots_pathFor, liveSlots]
    rcases Registry.getOrCreate_cases r.registry c.initiatorKey with ⟨path, hlookup, hget⟩ |
      ⟨hlookup, hget⟩
    · rw [pathFor, hget, hlookup]
    · -- Nobody is on the path that is new.
      rw [pathFor, hget, hlookup]
      have hnone : r.registry.path? ⟨r.registry.paths.size⟩ = none := by simp [Registry.path?]
      exact (slots_of_none hnone a).trans (Slots.get_empty a).symm

/-! ## Answers -/

/-- The answer is sent, and then the pings begin, if there are to be any. -/
theorem items_seated (hopen : c.outbox.isOpen = true) (a : Admission) (address : Address)
    (frame : Bytes) : (seated c a address frame).outbox.items = c.outbox.items ++ .binary frame ::
      if a.pingInterval = 0 then [] else [.keepAlive a.pingInterval.toNat] := by
  have hsent : ({ c with phase := .seated a address }.push (.binary frame)).outbox.items =
      c.outbox.items ++ [.binary frame] := Outbox.items_push _ _ hopen
  unfold seated
  dsimp only
  split
  · exact hsent
  · have hstill := (Outbox.isOpen_push c.outbox (.binary frame)).trans hopen
    refine (Outbox.items_push _ _ hstill).trans ?_
    rw [show (c.outbox.push (.binary frame)).items = _ from hsent, List.append_assoc]
    rfl

/-- Nobody is displaced by himself. -/
theorem client?_displace (r : Relay) (id : ClientId) (displaced : Option ClientId) :
    (r.displace id displaced).client? id = r.client? id := by
  unfold displace
  split
  · split
    · rfl
    · next hne => rw [close, client?_modifyClient, if_neg hne]
  · rfl

/-- Who was answered is seated, and does not hear of himself. -/
theorem client?_settled {c' : Client} {a : Admission} {seat : Seat} {frame : Bytes}
    (hc : r.client? id = some c) (hslot : (r.slots path).get seat.address = some id)
    (hkind : seat.address.kind = a.role.addressKind)
    (hsettled : (r.settled path id c' a seat frame).census.Coherent) :
    (r.settled path id c' a seat frame).client? id = some (seated c' a seat.address frame) := by
  have hcoherent : (r.setClient id (seated c' a seat.address frame)).census.Coherent := by
    rw [census_settled] at hsettled
    rw [census_setClient, Client.standing_seated]
    exact hsettled
  have hslot' : ((r.setClient id (seated c' a seat.address frame)).slots path).get seat.address =
      some id := hslot
  unfold settled
  rw [client?_displace]
  show (announce _ path a.role _).client? id = _
  rw [announce_eq, client?_notifyAll (notMem_audience hcoherent hslot' hkind), client?_setClient,
    if_pos rfl, hc]
  rfl

/-- **The server answers** an admitted client that is still there, as long as it has numbers left and,
for a responder, the path has an address left. -/
theorem sendServerAuth_ok {a : Admission} {e : Expectation} (hr : r.census.Coherent)
    (hc : r.client? id = some c) (hgone : c.gone = false) (hphase : c.phase = .admitted a)
    (hexpected : c.expected = some e) (hnumber : c.nextNumber.isSentinel = false)
    (hroom : a.role = .responder → (r.liveSlots c.initiatorKey).responders.length < 254) :
    ∃ address side frame c₁ s, r.sendServerAuth id = (.ok (), s) ∧
      address.kind = a.role.addressKind ∧
      (a.role = .responder → (r.liveSlots c.initiatorKey).get address = none) ∧
      s.registry.live.lookup c.initiatorKey = some (r.livePath c).1 ∧
      (s.slots (r.livePath c).1).get address = some id ∧
      (r.liveSlots c.initiatorKey).Describes a.role side ∧
      { c with path := (r.livePath c).1 }.pack address (.serverAuth ⟨e.cookie, side⟩) =
        .ok (frame, c₁) ∧
      s.client? id = some (seated c₁ a address frame) := by
  obtain ⟨hlookup, hlive⟩ := livePath_spec hr hc
  have hanswer : r.sendServerAuth id = r.answer id c a e.cookie := by
    simp only [sendServerAuth, hc, hgone, Bool.false_eq_true, if_false, hphase, hexpected]
  have hcoherent := (moves_answer hc hgone hphase e.cookie).coherent hr
  have hpath := path?_onLivePath hr hc hgone hphase
  have hslots : ∀ b, ((r.onLivePath id c).slots (r.livePath c).1).get b =
      (r.liveSlots c.initiatorKey).get b := hlive
  rcases answer_cases r id c a e.cookie with ⟨err, hseat, -⟩ | ⟨seat, r', err, -, hpack, -⟩ |
    ⟨seat, r', frame, c₁, hseat, hpack, heq⟩
  · -- There is room on the path.
    cases hrole : a.role with
    | initiator =>
      rw [hrole] at hseat
      cases hseat
    | responder =>
      have hsame : ((r.onLivePath id c).slots (r.livePath c).1).responders =
          (r.liveSlots c.initiatorKey).responders := by
        unfold Slots.responders
        simp only [hslots]
      obtain ⟨⟨address, slots⟩, hadd⟩ := Slots.add_ok (hsame ▸ hroom hrole) id
      rw [hrole, seat, hadd] at hseat
      cases hseat
  · -- And the answer can be packed.
    have hok : ∃ packed, { c with path := (r.livePath c).1 }.pack seat.address (.serverAuth
        ⟨e.cookie, r'.otherSide (r.livePath c).1 a.role⟩) = .ok packed :=
      Client.pack_ok hnumber fun _ => ⟨a.clientKey, by rw [hphase]; rfl⟩
    obtain ⟨packed, hok⟩ := hok
    cases hok.symm.trans hpack
  · obtain ⟨slots, rfl, hkind, -, hfree, hget⟩ := seat_eq_ok hseat
    have htaken : ∀ b, (((r.onLivePath id c).setSlots (r.livePath c).1 slots).slots
        (r.livePath c).1).get b =
          if b = seat.address then some id else (r.liveSlots c.initiatorKey).get b := fun b => by
      rw [slots_setSlots slots hpath, hget, hslots]
    have hslot := (htaken seat.address).trans (if_pos rfl)
    rw [heq] at hcoherent
    have hclient : ((r.onLivePath id c).setSlots (r.livePath c).1 slots).client? id =
        some { c with path := (r.livePath c).1 } := client?_onLivePath hc
    refine ⟨seat.address, _, frame, c₁, _, hanswer.trans heq, hkind, fun hrole => ?_, ?_, ?_,
      describes_otherSide hkind htaken, hpack, client?_settled hclient hslot hkind hcoherent⟩
    · rw [← hslots]
      exact hfree hrole
    · rw [registry_settled]
      exact hlookup
    · rw [slots_of_registry (registry_settled ..)]
      exact hslot

end Relay

end Rendezvous
