import Rendezvous.Proofs.Frame
import Rendezvous.Proofs.Message.RoundTrip
import Rendezvous.Proofs.Relay.Announcements

/-!
# What a client takes its path for

A client knows the other side of its path from the server's answer and from the notices behind it, and an
initiator also from what it had dropped itself. Nobody has the whole state of the path. This module shows
that nevertheless everybody's view of the other side is exact, as long as nobody but the one who has the
initiator's address has responders dropped.

A turn changes one address, and all those on the other side who have an address are told of it in the
same step. Only of a responder that is dropped nobody is told, and then the one whose view it concerns
has caused it himself.

* **`view`** — whether a client takes someone to be at an address, for all that happened on its connection.
* **`Relay.orderly`** — runs of a relay on its own, in which only who is the initiator acts as such.
* **`Seen`** — the invariant: views are exact, and each notice changes one.
* **`exact_run`** — what follows for orderly runs.
-/

namespace Rendezvous

/-! ## Views -/

/-- What an event says to its client about whether someone is at an address, if it says anything. -/
def Event.reports : Event → Address → Option Bool
  | .answered auth _ _, a => auth.otherSide.reports a
  | .told m _, a => m.reports a
  | .dropped b, a => if a = b then some false else none
  | _, _ => none

/-- Whether a client takes someone to be at an address: the answer is what it starts with, and each
notice, and each responder that it has dropped, changes that. -/
def view (history : List Event) (a : Address) : Bool :=
  history.foldl (fun there e => (e.reports a).getD there) false

variable {history : List Event} {e : Event}

theorem view_concat (history : List Event) (e : Event) (a : Address) :
    view (history ++ [e]) a = (e.reports a).getD (view history a) :=
  List.foldl_concat ..

theorem view_append_ite {p : Prop} [Decidable p] (history : List Event) (e : Event) (a : Address) :
    view (history ++ if p then [e] else []) a =
      if p then (e.reports a).getD (view history a) else view history a := by
  split
  · exact view_concat history e a
  · rw [List.append_nil]

/-- Only news change a view. -/
theorem view_news (history : List Event) (a : Address) :
    view (history.filter Event.isNews) a = view history a := by
  induction history using List.reverseRecOn with
  | nil => rfl
  | append_singleton history e ih =>
    rw [List.filter_append, view_concat]
    cases he : e.isNews with
    | true => rw [List.filter_cons_of_pos he, List.filter_nil, view_concat, ih]
    | false =>
      have hnone : e.reports a = none := by cases e <;> first | rfl | cases he
      rw [List.filter_cons_of_neg (by rw [he]; exact Bool.false_ne_true), List.filter_nil,
        List.append_nil, ih, hnone]
      rfl

/-- Each notice changes the view: nobody joins where someone is, or leaves from where nobody is. -/
def Telling (history : List Event) : Prop :=
  ∀ pre m seats post, history = pre ++ .told m seats :: post →
    (∀ a, m = .newResponder a → view pre a = false) ∧ ∀ a, m = .disconnected a → view pre a = true

theorem Telling.nil : Telling [] := by
  intro pre m seats post h
  exact absurd h.symm (by simp)

theorem Telling.concat (h : Telling history)
    (he : ∀ m seats, e = .told m seats → (∀ a, m = .newResponder a → view history a = false) ∧
      ∀ a, m = .disconnected a → view history a = true) : Telling (history ++ [e]) := by
  intro pre m seats post heq
  rcases concat_eq_append_cons.mp heq with ⟨rfl, hlast, -⟩ | ⟨post', hbefore, -⟩
  · exact he m seats hlast
  · exact h pre m seats post' hbefore

/-- What happened besides the news makes no difference. -/
theorem Telling.of_news (h : Telling (history.filter Event.isNews)) : Telling history := by
  intro pre m seats post heq
  have hfilter : history.filter Event.isNews =
      pre.filter Event.isNews ++ .told m seats :: post.filter Event.isNews := by
    rw [heq, List.filter_append, List.filter_cons_of_pos rfl]
  obtain ⟨hjoined, hleft⟩ := h _ m seats _ hfilter
  simp only [view_news] at hjoined hleft
  exact ⟨hjoined, hleft⟩

namespace Client

variable {service : Service} {c c' : Client} {es : List Event}

/-- A client that has no address yet takes nobody to be anywhere. -/
def Blank (c : Client) (history : List Event) : Prop :=
  c.isAuthenticated = false → ∀ a, view history a = false

theorem Blank.step (h : c.Blank history) (hstep : Step service c es c') : c'.Blank (history ++ es) := by
  have hkept : ∀ {e : Event}, (∀ a, e.reports a = none) → c.isAuthenticated = false →
      ∀ a, view (history ++ [e]) a = false := by
    intro e he hauth a
    rw [view_concat, he, h hauth]
    rfl
  cases hstep with
  | move | leave =>
    rw [List.append_nil]
    exact h
  | introduce hok =>
    obtain ⟨hphase, -⟩ := introduce_eq_ok.mp hok
    exact fun _ => hkept (fun _ => rfl) (by rw [isAuthenticated, hphase]; rfl)
  | authorize hok =>
    obtain ⟨role, key, permanent, hclaimed, -⟩ := authorize_eq_ok.mp hok
    exact fun _ => hkept (fun _ => rfl) (phase_of_claimed hclaimed).2
  | greet hphase => exact fun _ => hkept (fun _ => rfl) (by rw [isAuthenticated, hphase]; rfl)
  | @answer a address auth seats frame c₁ _ _ =>
    intro hfalse
    obtain ⟨outbox, heq⟩ := Relay.seated_eq c₁ a address frame
    rw [heq] at hfalse
    cases hfalse
  | drop hauth | tell hauth =>
    exact fun hfalse => absurd (hfalse.symm.trans hauth) Bool.false_ne_true
  | refuse _ hpack | pack hpack =>
    obtain ⟨next, -, rfl⟩ := eq_of_pack hpack
    exact fun hfalse => hkept (fun _ => rfl) hfalse
  | post hsending | serve _ hsending =>
    obtain ⟨next, -, rfl⟩ := eq_of_pack (sending_eq_ok.mp hsending).2
    exact fun hfalse => hkept (fun _ => rfl) hfalse
  | _ => exact fun hfalse => hkept (fun _ => rfl) hfalse

/-- A client that has no address yet has got one frame at most, unless others were packed from outside.
So its numbers are not used up. -/
def Modest (c : Client) (history : List Event) : Prop :=
  (∀ destination m frame, .packed destination m frame ∉ history) →
  (∀ draw, .opened draw ∈ history → draw.number.overflow = 0) → c.isAuthenticated = false →
    c.nextNumber.combined ≤ 2 ^ 32 ∧ (c.phase = .fresh → c.nextNumber.combined < 2 ^ 32)

theorem Modest.newcomer (r : Relay) (path : PathId) (key : PublicKey) (subprotocol : String)
    (draw : Relay.Draw) : (r.newcomer path key subprotocol draw).Modest [.opened draw] := by
  intro _ hopened _
  have hoverflow := hopened draw (.head _)
  have hsequence := draw.number.sequence.toNat_lt
  have hlt : draw.number.combined < 2 ^ 32 := by
    rw [SequenceNumber.combined, hoverflow]
    simp only [UInt16.toNat_zero]
    omega
  exact ⟨Nat.le_of_lt hlt, fun _ => hlt⟩

theorem Modest.step (h : c.Modest history) (hstep : Step service c es c') :
    c'.Modest (history ++ es) := by
  intro hpacked hopened hfalse
  replace h := h (fun destination m frame hmem => hpacked _ _ _ (List.mem_append_left _ hmem))
    fun draw hmem => hopened draw (List.mem_append_left _ hmem)
  cases hstep with
  | introduce hok =>
    obtain ⟨hphase, rfl⟩ := introduce_eq_ok.mp hok
    exact ⟨(h (by rw [isAuthenticated, hphase]; rfl)).1, fun hfresh => by cases hfresh⟩
  | authorize hok =>
    obtain ⟨role, key, permanent, hclaimed, -, -, -, rfl⟩ := authorize_eq_ok.mp hok
    exact ⟨(h (phase_of_claimed hclaimed).2).1, fun hfresh => by cases hfresh⟩
  | greet hphase hpack =>
    have hlt := (h (by rw [isAuthenticated, hphase]; rfl)).2 hphase
    obtain ⟨next, hnext, rfl⟩ := eq_of_pack hpack
    have hcombined := SequenceNumber.combined_of_next hnext
    refine ⟨?_, fun hfresh => by cases hfresh⟩
    show next.combined ≤ 2 ^ 32
    omega
  | @answer a address auth seats frame c₁ _ _ =>
    obtain ⟨outbox, heq⟩ := Relay.seated_eq c₁ a address frame
    rw [heq] at hfalse
    cases hfalse
  | refuse hauth hpack =>
    obtain ⟨next, -, rfl⟩ := eq_of_pack hpack
    cases hauth.symm.trans hfalse
  | pack => exact absurd (List.mem_append_right _ (.head _)) (hpacked _ _ _)
  | post hsending | serve _ hsending =>
    obtain ⟨hauth, hpack⟩ := sending_eq_ok.mp hsending
    obtain ⟨next, -, rfl⟩ := eq_of_pack hpack
    cases hauth.symm.trans hfalse
  | _ => exact h hfalse

/-- Nothing but used up numbers and an unknown key keep a message from being packed. -/
theorem pack_ok {destination : Address} {m : Message} (hnumber : c.nextNumber.isSentinel = false)
    (hkey : m.isSealed = true → ∃ key, c.phase.clientKey? = some key) :
    ∃ packed, c.pack destination m = .ok packed := by
  have hheader : ∃ header, (c.nextHeader destination).toOctets = .ok header :=
    Header.toOctets_ok hnumber
  obtain ⟨header, hheader⟩ := hheader
  have hsigned : ∃ signed, m.signedKeys (c.sealing header) = .ok signed := by
    unfold Message.signedKeys sealing
    cases m with
    | serverAuth =>
      obtain ⟨key, hkey⟩ := hkey rfl
      rw [hkey]
      cases c.phase.permanent? <;> exact ⟨_, rfl⟩
    | _ => exact ⟨_, rfl⟩
  obtain ⟨signed, hsigned⟩ := hsigned
  have hpayload : ∃ payload, m.payload (c.sealing header) = .ok payload := by
    cases hsealed : m.isSealed with
    | false => exact ⟨_, Message.payload_eq_ok.mpr ⟨signed, hsigned, .inl ⟨hsealed, rfl⟩⟩⟩
    | true =>
      obtain ⟨key, hkey⟩ := hkey hsealed
      exact ⟨_, Message.payload_eq_ok.mpr ⟨signed, hsigned, .inr ⟨hsealed, key, hkey, rfl⟩⟩⟩
  obtain ⟨payload, hpayload⟩ := hpayload
  obtain ⟨next, hnext⟩ := SequenceNumber.next_eq_ok hnumber
  exact ⟨_, pack_eq_ok.mpr ⟨hnumber, header, payload, next, hheader, hpayload, hnext, rfl, rfl⟩⟩

end Client

namespace Relay

variable {r s : Relay} {j n : Journal} {id : ClientId} {c : Client} {act : Action}

/-! ## Views are exact -/

/-- Everybody's view of the other side is exact, and each notice changes it. -/
structure Seen (r : Relay) (j : Journal) : Prop where
  agrees : ∀ path b d, (r.slots path).get b = some d → ∀ a,
    view (j.of d) a = true ↔ a.kind ≠ b.kind ∧ ((r.slots path).get a).isSome = true
  telling : ∀ d, Telling (j.of d)

theorem mem_responderIds {path : PathId} {a : Address} : a ∈ (r.slots path).responderIds ↔
    a.isResponder = true ∧ ((r.slots path).get a).isSome = true :=
  Slots.mem_responderIds_iff ..

/-- The server's answer is exact. -/
theorem getD_reports_otherSide (hs : s.census.Coherent) {path : PathId} {a : Address} {role : Role} :
    ((s.otherSide path role).reports a).getD false = true ↔
      a.kind ≠ role.addressKind ∧ ((s.slots path).get a).isSome = true := by
  constructor
  · intro hreports
    cases role with
    | initiator =>
      have hmem : a ∈ (s.slots path).responderIds := of_decide_eq_true hreports
      obtain ⟨hresponder, hsome⟩ := mem_responderIds.mp hmem
      rw [(Address.isResponder_iff a).mp hresponder]
      exact ⟨by decide, hsome⟩
    | responder =>
      rw [otherSide, OtherSide.reports] at hreports
      split at hreports
      · next heq =>
        subst heq
        exact ⟨by decide, hreports⟩
      · cases hreports
  · rintro ⟨hkind, hsome⟩
    obtain ⟨who, hget⟩ := Option.isSome_iff_exists.mp hsome
    rw [reports_otherSide hs hget hkind]
    rfl

namespace Seen

theorem nil (service : Service) : Seen (new service) [] := by
  refine ⟨fun path b d hget => ?_, fun d => Telling.nil⟩
  cases (get_new service path b).symm.trans hget

/-- Nothing is said, and nobody's address changes. -/
theorem silent {e : Event} (h : Seen r j) (hslots : SameSlots r s) (he : ∀ a, e.reports a = none)
    (htold : ∀ m seats, e ≠ .told m seats) : Seen s (j ++ [(id, e)]) := by
  refine ⟨fun path b d hget a => ?_, fun d => ?_⟩
  · rw [hslots] at hget ⊢
    rw [← h.agrees path b d hget a, Journal.of_concat, view_append_ite, he, Option.getD_none, ite_self]
  · rw [Journal.of_concat]
    exact append_ite (h.telling d) fun _ =>
      (h.telling d).concat fun m seats heq => absurd heq (htold m seats)

/-- The initiator has a responder dropped, and knows it. -/
theorem drop {path : PathId} {responder : Address} (hr : r.census.Coherent)
    (hs : s.census.Coherent) (h : Seen r j) (hslot : (r.slots path).get .initiator = some id)
    (hresponder : responder.isResponder = true) (hslots : Frees r s path responder) :
    Seen s (j ++ [(id, .dropped responder)]) := by
  have hkind : responder.kind = .responder := (Address.isResponder_iff responder).mp hresponder
  refine ⟨fun path' b d hget a => ?_, fun d => ?_⟩
  · have hget' := (hslots.get_eq_some hget).2
    have hbefore := h.agrees path' b d hget' a
    rw [Journal.of_concat, view_append_ite, hslots]
    by_cases hid : id = d
    · subst hid
      obtain ⟨rfl, rfl⟩ := address_unique hr hslot hget'
      rw [if_pos rfl]
      by_cases ha : a = responder
      · rw [show (Event.dropped responder).reports a = some false from if_pos ha, if_pos ⟨rfl, ha⟩]
        simp
      · rw [show (Event.dropped responder).reports a = none from if_neg ha,
          if_neg fun heq => ha heq.2]
        exact hbefore
    · rw [if_neg hid, hbefore]
      split
      · next heq =>
        -- Other responders on the path do not know him.
        obtain ⟨rfl, rfl⟩ := heq
        have hb : b.kind = .responder := by
          cases hb : b.kind with
          | server => exact absurd hb (kind_ne_server hs hget)
          | initiator =>
            rw [Address.eq_initiator hb, hslot] at hget'
            exact absurd (Option.some.inj hget') hid
          | responder => rfl
        simp [hkind, hb]
      · exact Iff.rfl
  · rw [Journal.of_concat]
    exact append_ite (h.telling d) fun _ => (h.telling d).concat fun m seats heq => by cases heq

/-- One address is taken or freed, and the other side is told. -/
theorem agrees_told {path path' : PathId} {address b : Address} {role : Role} {there : Bool}
    {m : Message} {seats : Slots ClientId} {d : ClientId} {history : List Event}
    (hs : s.census.Coherent) (hkind : address.kind = role.addressKind)
    (hm : ∀ a, m.reports a = if a = address then some there else none)
    (hslots : ∀ other a, ((s.slots other).get a).isSome =
      if path = other ∧ a = address then there else ((r.slots other).get a).isSome)
    (hget : (s.slots path').get b = some d)
    (hbefore : ∀ a, view history a = true ↔
      a.kind ≠ b.kind ∧ ((r.slots path').get a).isSome = true) (a : Address) :
    view (history ++ if d ∈ s.audience path role then [.told m seats] else []) a = true ↔
      a.kind ≠ b.kind ∧ ((s.slots path').get a).isSome = true := by
  rw [view_append_ite, Event.reports, hm, hslots]
  by_cases hmem : d ∈ s.audience path role
  · obtain ⟨b', hget', hne⟩ := (mem_audience_iff hs).mp hmem
    obtain ⟨rfl, rfl⟩ := address_unique hs hget' hget
    rw [if_pos hmem]
    by_cases ha : a = address
    · have hopposite : a.kind ≠ b'.kind := by
        rw [ha, hkind]
        exact Ne.symm hne
      rw [if_pos ha, if_pos ⟨rfl, ha⟩, Option.getD_some]
      exact (and_iff_right hopposite).symm
    · rw [if_neg ha, if_neg fun heq => ha heq.2]
      exact hbefore a
  · rw [if_neg hmem, hbefore]
    split
    · next heq =>
      -- Who is on the same side is not told, and does not mind.
      obtain ⟨rfl, rfl⟩ := heq
      have hb := kind_of_notMem_audience hs hget hmem
      simp [hkind, hb]
    · exact Iff.rfl

/-- A client is seated: it is told who is on the other side, who are told of the client. -/
theorem seat {path : PathId} {address : Address} {role : Role} {auth : ServerAuth} {frame : Bytes}
    (hs : s.census.Coherent) (h : Seen r j) (hblank : ∀ a, view (j.of id) a = false)
    (hkind : address.kind = role.addressKind)
    (hfree : role = .responder → (r.slots path).get address = none)
    (hslots : ∀ other b, (s.slots other).get b =
      if path = other ∧ b = address then some id else (r.slots other).get b)
    (hside : auth.otherSide = s.otherSide path role) :
    Seen s (j ++ ((id, .answered auth (s.slots path) frame) ::
      s.recordAnnouncement path role (joined role address) (s.slots path))) := by
  have hseat : (s.slots path).get address = some id := by
    rw [hslots, if_pos ⟨rfl, rfl⟩]
  have hself : id ∉ s.audience path role := notMem_audience hs hseat hkind
  have hoccupied : ∀ other a, ((s.slots other).get a).isSome =
      if path = other ∧ a = address then true else ((r.slots other).get a).isSome := by
    intro other a
    rw [hslots]
    split <;> rfl
  have hof : ∀ d, Journal.of (j ++ ((id, .answered auth (s.slots path) frame) ::
      s.recordAnnouncement path role (joined role address) (s.slots path))) d =
      (j.of d ++ if id = d then [.answered auth (s.slots path) frame] else []) ++
        if d ∈ s.audience path role then [.told (joined role address) (s.slots path)] else [] := by
    intro d
    rw [Journal.of_append, Journal.of_cons, of_recordAnnouncement hs, List.append_assoc]
  refine ⟨fun path' b d hget a => ?_, fun d => ?_⟩
  · rw [hof]
    by_cases hid : id = d
    · -- The one who was seated had heard of nobody before the answer.
      subst hid
      obtain ⟨rfl, rfl⟩ := address_unique hs hseat hget
      rw [if_pos rfl, if_neg hself, List.append_nil, view_concat, hblank, Event.reports, hside,
        getD_reports_otherSide hs, hkind]
    · rw [if_neg hid, List.append_nil]
      have hbefore := h.agrees path' b d (get_of_seated hslots hget hid)
      exact agrees_told hs hkind (reports_joined hkind) hoccupied hget hbefore a
  · rw [hof]
    have hanswered : Telling (j.of d ++
        if id = d then [.answered auth (s.slots path) frame] else []) :=
      append_ite (h.telling d) fun _ => (h.telling d).concat fun m seats heq => by cases heq
    refine append_ite hanswered fun hmem => hanswered.concat fun m seats heq => ?_
    cases heq
    have hid : id ≠ d := fun heq => hself (heq ▸ hmem)
    rw [if_neg hid, List.append_nil]
    refine ⟨fun a hm => ?_, fun a hm => ?_⟩
    · cases role with
      | initiator => cases hm
      | responder =>
        -- Responders get addresses that were free.
        cases hm
        obtain ⟨b, hget, -⟩ := (mem_audience_iff hs).mp hmem
        have hagrees := h.agrees path b d (get_of_seated hslots hget hid) address
        rw [hfree rfl] at hagrees
        simpa using hagrees
    · cases role <;> cases hm

/-- A client gives its address up, and those on the other side, who knew it, are told. -/
theorem leave {path : PathId} {address : Address} {role : Role} {seats : Slots ClientId}
    (hs : s.census.Coherent) (h : Seen r j) (hslot : (r.slots path).get address = some id)
    (hkind : address.kind = role.addressKind) (hslots : Frees r s path address) :
    Seen s (j ++ s.recordAnnouncement path role (.disconnected address) seats) := by
  have hoccupied : ∀ other a, ((s.slots other).get a).isSome =
      if path = other ∧ a = address then false else ((r.slots other).get a).isSome := by
    intro other a
    rw [hslots]
    split <;> rfl
  refine ⟨fun path' b d hget a => ?_, fun d => ?_⟩
  · rw [Journal.of_append, of_recordAnnouncement hs]
    have hbefore := h.agrees path' b d (hslots.get_eq_some hget).2
    exact agrees_told hs hkind (fun _ => rfl) hoccupied hget hbefore a
  · rw [Journal.of_append, of_recordAnnouncement hs]
    refine append_ite (h.telling d) fun hmem => (h.telling d).concat fun m seats heq => ?_
    cases heq
    refine ⟨fun a hm => ?_, fun a hm => ?_⟩
    · cases hm
    · -- Who is told had seen the address taken.
      cases hm
      obtain ⟨b, hget, hne⟩ := (mem_audience_iff hs).mp hmem
      rw [h.agrees path b d (hslots.get_eq_some hget).2, hslot, hkind]
      exact ⟨Ne.symm hne, rfl⟩

end Seen

/-! ## Orderly runs -/

/-- What may happen to a relay on its own: nothing is packed from outside, the server's numbers have not
wrapped when they are drawn, and a client that has a responder dropped has the initiator's address. -/
def permits (r : Relay) : Action → Bool
  | .accept _ _ draw => draw.number.overflow == 0
  | .receive id bytes =>
    match r.client? id with
    | none => true
    | some c =>
      match c.unpack bytes with
      | .ok (.dropResponder .., _) => !(c.isAuthenticated && c.role? == some .initiator) ||
          (r.slots c.path).get .initiator == some id
      | _ => true
  | .pack .. | .send .. => false
  | _ => true

def orderly : Relay → List Action → Bool
  | _, [] => true
  | r, act :: rest => r.permits act && (r.perform act).orderly rest

theorem orderly_append (r : Relay) (xs ys : List Action) :
    r.orderly (xs ++ ys) = (r.orderly xs && (r.run xs).orderly ys) := by
  induction xs generalizing r with
  | nil => rfl
  | cons act rest ih => rw [List.cons_append, orderly, orderly, ih, run_cons, Bool.and_assoc]

theorem permits_of_mem {actions : List Action} (h : r.orderly actions = true) (hact : act ∈ actions) :
    ∃ s : Relay, s.permits act = true := by
  obtain ⟨before, after, rfl⟩ := List.append_of_mem hact
  rw [orderly_append, orderly, Bool.and_eq_true, Bool.and_eq_true] at h
  exact ⟨_, h.2.1⟩

theorem slot_of_permits {bytes : Bytes} {responder : Address} {reason : Option CloseCode} {c' : Client}
    (h : r.permits (.receive id bytes) = true) (hc : r.client? id = some c)
    (hu : c.unpack bytes = .ok (.dropResponder responder reason, c'))
    (hauth : c.isAuthenticated = true) (hrole : c.role? = some .initiator) :
    (r.slots c.path).get .initiator = some id := by
  simpa [permits, hc, hu, hauth, hrole] using h

/-- The server's answer can be packed, unless frames were packed for the client from outside, or its
numbers had wrapped when they were drawn. -/
theorem admitted_packed {service : Service} {actions : List Action} {a : Admission}
    (hpack : ∀ destination m, .pack id destination m ∉ actions)
    (hdraw : ∀ key subprotocol draw, .accept key subprotocol draw ∈ actions → draw.number.overflow = 0)
    (hc : ((new service).run actions).client? id = some c) (hphase : c.phase = .admitted a)
    (path : PathId) (destination : Address) (m : Message) :
    ∃ packed, { c with path := path }.pack destination m = .ok packed := by
  have hmodest := (history_induction (P := Client.Modest) Client.Modest.newcomer
    (fun _ _ _ _ hstep h => h.step hstep) actions id).1 c hc
  have hpacked : ∀ destination m frame,
      .packed destination m frame ∉ (new service).history actions id := by
    intro destination m frame hmem
    obtain ⟨act, hact, hfrom⟩ := from_of_history hmem
    replace hfrom : act = .pack id destination m := hfrom
    exact hpack destination m (hfrom ▸ hact)
  have hopened : ∀ draw, .opened draw ∈ (new service).history actions id →
      draw.number.overflow = 0 := by
    intro draw hmem
    obtain ⟨act, hact, key, subprotocol, rfl⟩ := from_of_history hmem
    exact hdraw key subprotocol draw hact
  have hbound := (hmodest hpacked hopened (by rw [Client.isAuthenticated, hphase]; rfl)).1
  have hkey : c.phase.clientKey? = some a.clientKey := by
    rw [hphase]
    rfl
  have hnumber : c.nextNumber.isSentinel = false := by
    rw [← Bool.not_eq_true, SequenceNumber.isSentinel_iff]
    omega
  exact Client.pack_ok (c := { c with path := path }) hnumber fun _ => ⟨_, hkey⟩

/-- In an orderly run the server's answer can be packed. -/
theorem answer_packed {service : Service} {actions : List Action} {a : Admission}
    {destination : Address} {m : Message} (horderly : (new service).orderly actions = true)
    (hc : ((new service).run actions).client? id = some c) (hphase : c.phase = .admitted a)
    (path : PathId) : ∃ packed, { c with path := path }.pack destination m = .ok packed := by
  refine admitted_packed (fun destination m hact => ?_) (fun key subprotocol draw hact => ?_) hc hphase
    path destination m
  · obtain ⟨s, hpermits⟩ := permits_of_mem horderly hact
    cases hpermits
  · obtain ⟨s, hpermits⟩ := permits_of_mem horderly hact
    exact beq_iff_eq.mp hpermits

/-- Each turn that is permitted keeps all views exact. -/
theorem Seen.turn (hr : r.census.Coherent) (hs : s.census.Coherent) (h : Seen r j)
    (hturn : Turn r act n s) (hpermits : r.permits act = true)
    (hblank : ∀ id c, r.client? id = some c → c.isAuthenticated = false →
      ∀ a, view (j.of id) a = false)
    (hpacked : ∀ id c a path m, r.client? id = some c → c.phase = .admitted a →
      ∃ packed, { c with path := path }.pack .initiator m = .ok packed) : Seen s (j ++ n) := by
  cases hturn with
  | quiet hslots =>
    rw [List.append_nil]
    refine ⟨fun path b d hget a => ?_, h.telling⟩
    rw [hslots] at hget ⊢
    exact h.agrees path b d hget a
  | introduce _ _ _ _ hslots => exact h.silent hslots (fun _ => rfl) nofun
  | authorize _ _ _ _ hslots => exact h.silent hslots (fun _ => rfl) nofun
  | relay _ _ hslots => exact h.silent hslots (fun _ => rfl) nofun
  | drop hact hc hu hauth hrole hslots =>
    rw [hact] at hpermits
    have hslot := slot_of_permits hpermits hc hu hauth hrole
    exact h.drop hr hs hslot (Client.isResponder_of_unpack hu) hslots
  | release hc hphase hpack hslots =>
    obtain ⟨packed, hok⟩ := hpacked _ _ _ _ _ hc hphase
    cases hok.symm.trans hpack
  | seat _ hc hphase hkind hfree hslots hside =>
    refine h.seat hs (hblank _ _ hc ?_) hkind hfree hslots hside
    rw [Client.isAuthenticated, hphase]
    rfl
  | leave _ hc _ hslot hrole hslots =>
    obtain ⟨p, c', hc', ho⟩ := occupant_of_get hr hslot
    cases hc.symm.trans hc'
    have hkind := ho.role
    rw [hrole] at hkind
    exact h.leave hs hslot (Option.some.inj hkind).symm hslots

/-- In an orderly run all views are exact. -/
theorem seen_run {service : Service} {actions : List Action}
    (horderly : (new service).orderly actions = true) :
    Seen ((new service).run actions) ((new service).journal actions).news := by
  induction actions using List.reverseRecOn with
  | nil => exact Seen.nil service
  | append_singleton actions act ih =>
    rw [orderly_append, Bool.and_eq_true] at horderly
    obtain ⟨hbefore, hlast⟩ := horderly
    rw [orderly, orderly, Bool.and_true] at hlast
    have hr := coherent_run service actions
    rw [run_concat, journal_concat, Journal.news_append]
    refine (ih hbefore).turn hr (coherent_perform hr act) (turn_perform hr act) hlast
      (fun id c hc hauth a => ?_) fun id c a path m hc hphase => answer_packed hbefore hc hphase path
    have hblank := (history_induction (P := Client.Blank) (fun _ _ _ _ _ _ _ => rfl)
      (fun _ _ _ _ hstep h => h.step hstep) actions id).1 c hc
    rw [Journal.of_news, view_news]
    exact hblank hauth a

/-- Views are exact. The initiator takes those to be there who have a responder's address, and each
responder knows whether there is an initiator. Nobody is told that someone joined who was there, or left
who was not. What a client is told is sent to it in this order, as long as all notices can be packed; and what
is sent to it is what its writer has taken and what waits there, as long as it has a writer. -/
structure Exact (r : Relay) (history : ClientId → List Event) : Prop where
  initiator : ∀ path p d, r.registry.path? path = some p → p.slots.get .initiator = some d →
    ∀ a, view (history d) a = true ↔ a ∈ p.slots.responderIds
  responder : ∀ path p b d, r.registry.path? path = some p → p.slots.get b = some d → b ≠ .initiator →
    (view (history d) .initiator = true ↔ (p.slots.get .initiator).isSome = true)
  joined : ∀ d pre a seats post, history d = pre ++ .told (.newResponder a) seats :: post →
    view pre a = false
  left : ∀ d pre a seats post, history d = pre ++ .told (.disconnected a) seats :: post →
    view pre a = true
  delivered : ∀ d c, r.client? d = some c → (∀ code, .cut code ∉ history d) →
    (ledger (history d)).sent.filterMap Entry.letter? ++ (ledger (history d)).waiting =
      letters (history d) ∧ (ledger (history d)).waiting.map Letter.delivery = c.inbox
  channel : ∀ d c, r.client? d = some c → c.outbox.isOpen = true →
    (history d).flatMap Event.taken ++ c.outbox.items = (ledger (history d)).sent.map Entry.item ∧
      ∀ x ∈ (ledger (history d)).sent, x.Genuine c

/-- **Views of a path are exact.** In an orderly run everybody's view of the other side of his path, drawn
from nothing but what happened on his connection, is exact after every action. -/
theorem exact_run (service : Service) (actions : List Action)
    (horderly : (new service).orderly actions = true) :
    Exact ((new service).run actions) ((new service).history actions) := by
  have hseen := seen_run horderly
  have hr := coherent_run service actions
  have hview : ∀ d a, view (((new service).journal actions).news.of d) a =
      view ((new service).history actions d) a := by
    intro d a
    rw [Journal.of_news, view_news]
    rfl
  have htelling : ∀ d, Telling ((new service).history actions d) := by
    intro d
    refine Telling.of_news ?_
    rw [history, ← Journal.of_news]
    exact hseen.telling d
  have hslots : ∀ {path : PathId} {p : Path ClientId},
      ((new service).run actions).registry.path? path = some p →
      ((new service).run actions).slots path = p.slots := by
    intro path p hp
    rw [slots, hp]
  refine ⟨fun path p d hp hget a => ?_, fun path p b d hp hget hne => ?_,
    fun d pre a seats post heq => ?_, fun d pre a seats post heq => ?_, fun d c hc hcut => ?_,
    fun d c hc hopen => ?_⟩
  · rw [← hslots hp] at hget ⊢
    rw [← hview, hseen.agrees path _ d hget a, mem_responderIds]
    -- Where somebody is, not to be an initiator's address is to be a responder's.
    refine and_congr_left fun hsome => ?_
    obtain ⟨who, hwho⟩ := Option.isSome_iff_exists.mp hsome
    constructor
    · exact Address.isResponder_of_ne (kind_ne_server hr hwho)
    · intro hresponder
      rw [(Address.isResponder_iff a).mp hresponder]
      decide
  · rw [← hslots hp] at hget ⊢
    rw [← hview, hseen.agrees path b d hget .initiator]
    have hkind : Address.initiator.kind ≠ b.kind := by
      intro heq
      exact hne (Address.eq_initiator heq.symm)
    exact and_iff_right hkind
  · exact ((htelling d) pre _ seats post heq).1 a rfl
  · exact ((htelling d) pre _ seats post heq).2 a rfl
  · have hbooked := (booked_run service actions d).1 c hc
    exact ⟨hbooked.ordered.kept hcut, hbooked.inbox⟩
  · have hbooked := (booked_run service actions d).1 c hc
    exact ⟨hbooked.outbox.eq_of_isOpen hopen, hbooked.genuine⟩

/-- An initiator and a responder meet, and the initiator has the responder dropped. -/
def meeting : List Action :=
  [Displaced.connect, .greet ⟨0⟩, .receive ⟨0⟩ Displaced.initiatorAuth, .answer ⟨0⟩,
    Displaced.connect, .greet ⟨1⟩, .receive ⟨1⟩ Displaced.responderHello,
    .receive ⟨1⟩ Displaced.responderAuth, .answer ⟨1⟩, .receive ⟨0⟩ Displaced.drop]

theorem exact_run_meeting : (new Displaced.service).orderly meeting = true ∧
    Exact ((new Displaced.service).run meeting) ((new Displaced.service).history meeting) := by
  have horderly : (new Displaced.service).orderly meeting = true := by decide +kernel
  exact ⟨horderly, exact_run Displaced.service meeting horderly⟩

end Relay

end Rendezvous
