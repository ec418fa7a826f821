import Mathlib.Data.List.Induction
import Rendezvous.Proofs.Relay.Eviction
import Rendezvous.Proofs.Relay.Ledger
import Rendezvous.Proofs.Relay.Turns

/-!
# Announcements come before traffic

Notices are packed by jobs, which may run in any order, while a frame that is relayed is sent at once if
nothing waits. Nevertheless nobody hears from someone whom he does not know: when a frame is relayed to a
client, the last that was said to the client about the frame's source is that its sender is there.

That the letters to a client are caused in such an order is an invariant of the whole relay, which each
turn keeps: who is seated is announced in the very step in which he gets his address, and frames are
handed over only between those who have one. That letters are also sent in the order in which they are
caused is what the ledger shows.

* **`Message.reports`** — what a message says about whether someone is at an address.
* **`known`** — who is at an address, for all that the letters to a client say.
* **`Informed`** — the invariant: whoever has an address on a path is known to the other side.
* **`announced_run`** — what follows for what is sent.
-/

namespace Rendezvous

/-! ## What is known from letters -/

def OtherSide.reports : OtherSide → Address → Option Bool
  | .responders ids, a => some (decide (a ∈ ids))
  | .initiator connected, a => if a = .initiator then some connected else none

/-- What a message says about whether someone is at an address, if it says anything. -/
def Message.reports : Message → Address → Option Bool
  | .serverAuth auth, a => auth.otherSide.reports a
  | .newInitiator, a => if a = .initiator then some true else none
  | .newResponder b, a => if a = b then some true else none
  | .disconnected b, a => if a = b then some false else none
  | _, _ => none

/-- Who is at an address from now on, if a letter says anything about it. -/
def Letter.settles (l : Letter) (a : Address) : Option (Option ClientId) :=
  match l with
  | .said m seats => (m.reports a).map fun there => if there then seats.get a else none
  | .relayed .. => none

/-- Who is at an address, for all that is said in letters. -/
def known (ls : List Letter) (a : Address) : Option ClientId :=
  ls.foldl (fun who l => (l.settles a).getD who) none

theorem known_concat (ls : List Letter) (l : Letter) (a : Address) :
    known (ls ++ [l]) a = (l.settles a).getD (known ls a) :=
  List.foldl_concat ..

theorem known_append_ite {p : Prop} [Decidable p] (ls : List Letter) (l : Letter) (a : Address) :
    known (ls ++ if p then [l] else []) a = if p then (l.settles a).getD (known ls a) else known ls a := by
  split
  · exact known_concat ls l a
  · rw [List.append_nil]

/-- Who is known was announced, and nothing was said about the address since. -/
theorem eq_append_of_known {ls : List Letter} {a : Address} {s : ClientId} (h : known ls a = some s) :
    ∃ pre m seats post, ls = pre ++ .said m seats :: post ∧ m.reports a = some true ∧
      seats.get a = some s ∧ ∀ l ∈ post, l.settles a = none := by
  induction ls using List.reverseRecOn with
  | nil => cases h
  | append_singleton ls l ih =>
    rw [known_concat] at h
    cases hl : l.settles a with
    | none =>
      rw [hl] at h
      obtain ⟨pre, m, seats, post, rfl, hreports, hget, hpost⟩ := ih h
      refine ⟨pre, m, seats, post ++ [l], by simp, hreports, hget, fun l' hl' => ?_⟩
      rcases List.mem_append.mp hl' with hmem | hmem
      · exact hpost l' hmem
      · rw [List.mem_singleton.mp hmem]
        exact hl
    | some who =>
      rw [hl] at h
      cases l with
      | relayed => cases hl
      | said m seats =>
        obtain ⟨there, hreports, hwho⟩ := Option.map_eq_some_iff.mp hl
        replace h : who = some s := h
        cases there with
        | false => cases hwho.trans h
        | true => exact ⟨ls, m, seats, [], rfl, hreports, hwho.trans h, nofun⟩

/-- Letters to a client are in order: whoever has a frame relayed is known, and whoever is said to have
left has left, and is not heard of any more. -/
structure Credible (gone : ClientId → Prop) (ls : List Letter) : Prop where
  relayed : ∀ pre s bytes post, ls = pre ++ .relayed s bytes :: post →
    ∃ f, Frame.parse bytes = .ok f ∧ known pre f.header.source = some s
  departed : ∀ pre a seats post, ls = pre ++ .said (.disconnected a) seats :: post →
    ∃ s, seats.get a = some s ∧ gone s ∧ ∀ bytes, .relayed s bytes ∉ post

namespace Credible

variable {gone gone' : ClientId → Prop} {ls : List Letter}

theorem nil : Credible gone [] := by
  refine ⟨fun pre s bytes post h => ?_, fun pre a seats post h => ?_⟩ <;>
    exact absurd h.symm (by simp)

theorem mono (h : Credible gone ls) (hgone : ∀ s, gone s → gone' s) : Credible gone' ls := by
  refine ⟨h.relayed, fun pre a seats post heq => ?_⟩
  obtain ⟨s, hget, hs, hpost⟩ := h.departed pre a seats post heq
  exact ⟨s, hget, hgone s hs, hpost⟩

theorem mono_left {ls' : List Letter} (h : Credible gone ls) (hpre : ls' <+: ls) : Credible gone ls' := by
  obtain ⟨more, rfl⟩ := hpre
  refine ⟨fun pre s bytes post heq => ?_, fun pre a seats post heq => ?_⟩
  · subst heq
    exact h.relayed pre s bytes (post ++ more) (by simp)
  · subst heq
    obtain ⟨s, hget, hs, hpost⟩ := h.departed pre a seats (post ++ more) (by simp)
    exact ⟨s, hget, hs, fun bytes hmem => hpost bytes (List.mem_append_left _ hmem)⟩

theorem said {m : Message} {seats : Slots ClientId} (h : Credible gone ls)
    (hm : ∀ a, m = .disconnected a → ∃ s, seats.get a = some s ∧ gone s) :
    Credible gone (ls ++ [.said m seats]) := by
  refine ⟨fun pre s bytes post heq => ?_, fun pre a seats post heq => ?_⟩
  · rcases concat_eq_append_cons.mp heq with ⟨-, hlast, -⟩ | ⟨post', hbefore, -⟩
    · cases hlast
    · exact h.relayed pre s bytes post' hbefore
  · rcases concat_eq_append_cons.mp heq with ⟨-, hlast, rfl⟩ | ⟨post', hbefore, rfl⟩
    · cases hlast
      obtain ⟨s, hget, hs⟩ := hm a rfl
      exact ⟨s, hget, hs, fun _ => List.not_mem_nil⟩
    · obtain ⟨s, hget, hs, hpost⟩ := h.departed pre a seats post' hbefore
      refine ⟨s, hget, hs, fun bytes hmem => ?_⟩
      rcases List.mem_append.mp hmem with hmem | hmem
      · exact hpost bytes hmem
      · cases List.mem_singleton.mp hmem

theorem concat_relayed {s : ClientId} {bytes : Bytes} {f : Frame} (h : Credible gone ls)
    (hparse : Frame.parse bytes = .ok f) (hknown : known ls f.header.source = some s)
    (hpresent : ¬ gone s) : Credible gone (ls ++ [.relayed s bytes]) := by
  refine ⟨fun pre s' bytes' post heq => ?_, fun pre a seats post heq => ?_⟩
  · rcases concat_eq_append_cons.mp heq with ⟨rfl, hlast, -⟩ | ⟨post', hbefore, -⟩
    · cases hlast
      exact ⟨f, hparse, hknown⟩
    · exact h.relayed pre s' bytes' post' hbefore
  · rcases concat_eq_append_cons.mp heq with ⟨-, hlast, -⟩ | ⟨post', hbefore, rfl⟩
    · cases hlast
    · obtain ⟨s', hget, hs', hpost⟩ := h.departed pre a seats post' hbefore
      refine ⟨s', hget, hs', fun bytes' hmem => ?_⟩
      rcases List.mem_append.mp hmem with hmem | hmem
      · exact hpost bytes' hmem
      · -- Who is relayed from is still there.
        cases List.mem_singleton.mp hmem
        exact hpresent hs'

end Credible

/-! ## Who has gone -/

namespace Relay

variable {r s : Relay} {j j' n : Journal} {id : ClientId} {c : Client} {act : Action}

def Gone (r : Relay) (id : ClientId) : Prop :=
  ∃ c, r.client? id = some c ∧ c.gone = true

theorem Gone.perform (hr : r.census.Coherent) (h : r.Gone id) (act : Action) :
    (r.perform act).Gone id := by
  obtain ⟨c, hc, hgone⟩ := h
  obtain ⟨c', hc', hsteps⟩ := client?_perform hr act hc
  exact ⟨c', hc', hsteps.later.gone hgone⟩

theorem gone_of_disconnect (hc : r.client? id = some c) : (r.perform (.disconnect id)).Gone id := by
  have hdeparted : ∀ c, r.client? id = some c → (r.departed id c).Gone id := by
    intro c hc
    refine ⟨{ c with gone := true }, ?_, rfl⟩
    rw [client?_departed, if_pos rfl, hc]
    rfl
  rcases disconnected_cases r id with ⟨hnone, -⟩ | ⟨d, outcome, hd, -, heq⟩ |
    ⟨d, role, outcome, hd, -, -, -, heq⟩
  · cases hc.symm.trans hnone
  · rw [perform, heq]
    exact hdeparted d hd
  · rw [perform, heq]
    -- The announcement changes nobody's standing.
    obtain ⟨c', hc', hgone⟩ := hdeparted d hd
    have hstanding : ((r.departed id d).announce d.path role (.disconnected d.id)).census.client? id =
        some c'.standing := by
      rw [census_announce]
      exact census_client? hc'
    obtain ⟨c'', hc'', hsame⟩ := of_census_client? hstanding
    have hgone' : c'.standing.gone = c''.standing.gone := by rw [hsame]
    exact ⟨c'', hc'', hgone'.symm.trans hgone⟩

theorem not_gone_of_get (hr : r.census.Coherent) {path : PathId} {a : Address}
    (h : (r.slots path).get a = some id) : ¬ r.Gone id := by
  rintro ⟨c, hc, hgone⟩
  obtain ⟨p, c', hc', ho⟩ := occupant_of_get hr h
  cases hc.symm.trans hc'
  exact Bool.false_ne_true (ho.present.symm.trans hgone)

/-! ## Everybody is informed -/

/-- Whoever has an address on a path is known to those on the other side of it. -/
structure Informed (r : Relay) (j : Journal) : Prop where
  known : ∀ path a b d s, (r.slots path).get b = some d → (r.slots path).get a = some s →
    a.kind ≠ b.kind → known (letters (j.of d)) a = some s
  credible : ∀ d, Credible r.Gone (letters (j.of d))

/-- The letters that an action causes are among its news. -/
theorem letters_news (j : Journal) (d : ClientId) : letters (j.news.of d) = letters (j.of d) := by
  unfold letters
  rw [Journal.of_news, List.filterMap_filter]
  congr 1
  funext e
  cases e <;> rfl

theorem letters_of_singleton (id : ClientId) (e : Event) (d : ClientId) :
    letters (Journal.of [(id, e)] d) = if id = d then e.letter?.toList else [] := by
  rw [Journal.of_cons, Journal.of_nil, List.append_nil]
  unfold letters
  split
  · cases he : e.letter? <;> simp [he]
  · rfl

theorem letters_of_silent (id : ClientId) {e : Event} (he : e.letter? = none) (d : ClientId) :
    letters (Journal.of [(id, e)] d) = [] := by
  rw [letters_of_singleton, he]
  split <;> rfl

/-- The other side is reported as it is. -/
theorem reports_otherSide (hs : s.census.Coherent) {path : PathId} {a : Address} {who : ClientId}
    {role : Role} (hget : (s.slots path).get a = some who) (hkind : a.kind ≠ role.addressKind) :
    (s.otherSide path role).reports a = some true := by
  have hserver := kind_ne_server hs hget
  cases role with
  | initiator =>
    have hresponder := Address.isResponder_of_ne hserver hkind
    have hmem : a ∈ (s.slots path).responderIds :=
      List.mem_map.mpr ⟨(a, who), (Slots.mem_responders_iff ..).mpr ⟨hresponder, hget⟩, rfl⟩
    rw [otherSide, OtherSide.reports, decide_eq_true hmem]
  | responder =>
    cases Address.eq_initiator_of_ne hserver hkind
    rw [otherSide, OtherSide.reports, if_pos rfl, Slots.initiator, hget]
    rfl

theorem reports_joined {role : Role} {address : Address} (h : address.kind = role.addressKind)
    (a : Address) : (joined role address).reports a = if a = address then some true else none := by
  cases role with
  | initiator =>
    rw [Address.eq_initiator h]
    rfl
  | responder => rfl

namespace Informed

theorem nil (service : Service) : Informed (new service) [] := by
  refine ⟨fun path a b d s hget => ?_, fun d => Credible.nil⟩
  cases (get_new service path b).symm.trans hget

/-- Nobody is told anything, and nobody gets an address. -/
theorem silent (h : Informed r j) (hgone : ∀ d, r.Gone d → s.Gone d)
    (hslots : ∀ path a d, (s.slots path).get a = some d → (r.slots path).get a = some d)
    (hletters : ∀ d, letters (j'.of d) = letters (j.of d)) : Informed s j' := by
  refine ⟨fun path a b d who hd hwho hkind => ?_, fun d => ?_⟩
  · rw [hletters]
    exact h.known path a b d who (hslots _ _ _ hd) (hslots _ _ _ hwho) hkind
  · rw [hletters]
    exact (h.credible d).mono hgone

/-- A frame is handed over. Its sender is on the other side, so he is known, and he is still there. -/
theorem relay {sender peer : ClientId} {frame : Bytes} (hr : r.census.Coherent)
    (hs : s.census.Coherent) (h : Informed r j) (hto : r.Handover sender peer frame)
    (hslots : SameSlots r s) (hgone : ∀ d, r.Gone d → s.Gone d)
    (hletters : ∀ d, letters (j'.of d) =
      letters (j.of d) ++ if peer = d then [.relayed sender frame] else []) : Informed s j' := by
  obtain ⟨path, f, c, c', hparse, ho⟩ := hto
  have hknown : Rendezvous.known (letters (j.of peer)) f.header.source = some sender := by
    -- Sender and receiver have opposite roles, so they are on opposite sides.
    refine h.known path _ _ peer sender ho.destination ho.source ?_
    obtain ⟨p, d, hd, hod⟩ := occupant_of_get hr ho.source
    obtain ⟨p', d', hd', hod'⟩ := occupant_of_get hr ho.destination
    cases hd.symm.trans ho.sender_eq
    cases hd'.symm.trans ho.receiver_eq
    obtain ⟨role, other, hrole, hother, hne⟩ := ho.roles
    have hsource := hod.role
    have hdestination := hod'.role
    rw [hrole] at hsource
    rw [hother] at hdestination
    rw [← Option.some.inj hsource, ← Option.some.inj hdestination]
    intro heq
    cases role <;> cases other <;> first | exact hne rfl | cases heq
  have hpresent : ¬ s.Gone sender := not_gone_of_get hs ((hslots path _).trans ho.source)
  refine ⟨fun path' a b d who hd hwho hkind => ?_, fun d => ?_⟩
  · rw [hslots] at hd hwho
    rw [hletters, known_append_ite, Letter.settles, Option.getD_none, ite_self]
    exact h.known path' a b d who hd hwho hkind
  · have hbefore := (h.credible d).mono hgone
    rw [hletters]
    refine append_ite hbefore fun heq => ?_
    subst heq
    exact hbefore.concat_relayed hparse hknown hpresent

/-- What is told about one address leaves all others as they were. -/
theorem known_told {path path' : PathId} {address a b : Address} {role : Role} {m : Message}
    {seats : Slots ClientId} {d who : ClientId} {ls : List Letter} (hs : s.census.Coherent)
    (hm : ∀ a, a ≠ address → m.reports a = none) (hd : (s.slots path').get b = some d)
    (hne : ¬ (path = path' ∧ a = address)) (hknown : Rendezvous.known ls a = some who) :
    Rendezvous.known (ls ++ if d ∈ s.audience path role then [.said m seats] else []) a =
      some who := by
  rw [known_append_ite]
  split
  · next hmem =>
    obtain ⟨b', hb', -⟩ := (mem_audience_iff hs).mp hmem
    obtain ⟨rfl, -⟩ := address_unique hs hb' hd
    rw [Letter.settles, hm a fun heq => hne ⟨rfl, heq⟩]
    exact hknown
  · exact hknown

/-- A client is seated and told who is on the other side, who are told of the client. -/
theorem seat {path : PathId} {address : Address} {role : Role} {auth : ServerAuth}
    (hs : s.census.Coherent) (h : Informed r j) (hkind : address.kind = role.addressKind)
    (hslots : ∀ other b, (s.slots other).get b =
      if path = other ∧ b = address then some id else (r.slots other).get b)
    (hside : auth.otherSide = s.otherSide path role) (hgone : ∀ d, r.Gone d → s.Gone d)
    (hletters : ∀ d, letters (j'.of d) = letters (j.of d) ++
      ((if id = d then [.said (.serverAuth auth) (s.slots path)] else []) ++
        if d ∈ s.audience path role then [.said (joined role address) (s.slots path)] else [])) :
    Informed s j' := by
  have hseat : (s.slots path).get address = some id := by
    rw [hslots, if_pos ⟨rfl, rfl⟩]
  have hself : id ∉ s.audience path role := notMem_audience hs hseat hkind
  refine ⟨fun path' a b d who hd hwho hopposite => ?_, fun d => ?_⟩
  · rw [hletters]
    by_cases hid : id = d
    · -- The one who was seated knows from the answer.
      subst hid
      obtain ⟨rfl, rfl⟩ := address_unique hs hseat hd
      rw [hkind] at hopposite
      rw [if_pos rfl, if_neg hself, List.append_nil, known_concat, Letter.settles, Message.reports,
        hside, reports_otherSide hs hwho hopposite]
      exact congrArg (Option.getD · _) (congrArg some hwho)
    · rw [if_neg hid, List.nil_append]
      by_cases hat : path = path' ∧ a = address
      · -- It is the one who was seated, and whoever is on the other side is told of him.
        obtain ⟨rfl, rfl⟩ := hat
        have hmem : d ∈ s.audience path role :=
          (mem_audience_iff hs).mpr ⟨b, hd, fun heq => hopposite (hkind.trans heq.symm)⟩
        rw [if_pos hmem, known_concat, Letter.settles, reports_joined hkind, if_pos rfl]
        exact hwho
      · have hwho' : (r.slots path').get a = some who := by
          rw [hslots, if_neg hat] at hwho
          exact hwho
        have hbefore := h.known path' a b d who (get_of_seated hslots hd hid) hwho' hopposite
        refine known_told hs (fun a' hne => ?_) hd hat hbefore
        rw [reports_joined hkind, if_neg hne]
  · have hbefore := (h.credible d).mono hgone
    have hanswered : Credible s.Gone (letters (j.of d) ++
        if id = d then [.said (.serverAuth auth) (s.slots path)] else []) :=
      append_ite hbefore fun _ => hbefore.said fun a heq => by cases heq
    rw [hletters, ← List.append_assoc]
    refine append_ite hanswered fun _ => hanswered.said fun a heq => ?_
    cases role <;> cases heq

/-- A client gives its address up, and those on the other side are told. -/
theorem leave {path : PathId} {address : Address} {role : Role} (hs : s.census.Coherent)
    (h : Informed r j) (hslot : (r.slots path).get address = some id) (hslots : Frees r s path address)
    (hid : s.Gone id) (hgone : ∀ d, r.Gone d → s.Gone d)
    (hletters : ∀ d, letters (j'.of d) = letters (j.of d) ++
      if d ∈ s.audience path role then [.said (.disconnected address) (r.slots path)] else []) :
    Informed s j' := by
  refine ⟨fun path' a b d who hd hwho hopposite => ?_, fun d => ?_⟩
  · -- The address that was given up is not the one of him who still has his.
    obtain ⟨hne, hwho'⟩ := hslots.get_eq_some hwho
    have hbefore := h.known path' a b d who (hslots.get_eq_some hd).2 hwho' hopposite
    rw [hletters]
    exact known_told hs (fun a' hother => if_neg hother) hd hne hbefore
  · have hbefore := (h.credible d).mono hgone
    rw [hletters]
    refine append_ite hbefore fun _ => hbefore.said fun a heq => ?_
    cases heq
    exact ⟨id, hslot, hid⟩

/-- Each turn keeps everybody informed. -/
theorem turn (hr : r.census.Coherent) (hs : s.census.Coherent) (h : Informed r j)
    (hturn : Turn r act n s) (hgone : ∀ d, r.Gone d → s.Gone d)
    (hleft : ∀ d c, act = .disconnect d → r.client? d = some c → s.Gone d)
    (hletters : ∀ d, letters (j'.of d) = letters (j.of d) ++ letters (n.of d)) : Informed s j' := by
  have hannounced : ∀ (path : PathId) (role : Role) (m : Message) (seats : Slots ClientId)
      (d : ClientId), letters ((s.recordAnnouncement path role m seats).of d) =
        if d ∈ s.audience path role then [.said m seats] else [] := by
    intro path role m seats d
    rw [of_recordAnnouncement hs]
    split <;> rfl
  have hsame : SameSlots r s → ∀ path a d, (s.slots path).get a = some d →
      (r.slots path).get a = some d := fun hslots path a d hget => (hslots path a).symm.trans hget
  cases hturn with
  | quiet hslots => exact h.silent hgone (hsame hslots) fun d => (hletters d).trans (List.append_nil _)
  | introduce _ _ _ _ hslots | authorize _ _ _ _ hslots =>
    refine h.silent hgone (hsame hslots) fun d => ?_
    rw [hletters, letters_of_silent _ rfl, List.append_nil]
  | drop _ _ _ _ _ hslots =>
    refine h.silent hgone (fun _ _ _ hget => (hslots.get_eq_some hget).2) fun d => ?_
    rw [hletters, letters_of_silent _ rfl, List.append_nil]
  | release _ _ _ hslots =>
    exact h.silent hgone (fun _ _ _ hget => (hslots.get_eq_some hget).2) fun d =>
      (hletters d).trans (List.append_nil _)
  | relay _ hto hslots =>
    refine h.relay hr hs hto hslots hgone fun d => ?_
    rw [hletters, letters_of_singleton]
    rfl
  | @seat id c a path address auth frame _ _ _ _ hkind _ hslots hside =>
    refine h.seat hs hkind hslots hside hgone fun d => ?_
    rw [hletters, ← List.singleton_append, Journal.of_append, letters_append, letters_of_singleton,
      hannounced]
    rfl
  | leave hact hc _ hslot _ hslots =>
    simp only [hannounced] at hletters
    exact h.leave hs hslot hslots (hleft _ _ hact hc) hgone hletters

end Informed

/-- Everybody is informed after every run. -/
theorem informed_run (service : Service) (actions : List Action) :
    Informed ((new service).run actions) ((new service).journal actions) := by
  have hstep : ∀ r j act, (r.census.Coherent ∧ Informed r j) →
      ((r.perform act).census.Coherent ∧ Informed (r.perform act) (j ++ r.record act)) := by
    rintro r j act ⟨hr, h⟩
    have hs := coherent_perform hr act
    refine ⟨hs, h.turn hr hs (turn_perform hr act) (fun d hd => hd.perform hr act) ?_ fun d => ?_⟩
    · rintro d c rfl hc
      exact gone_of_disconnect hc
    · rw [Journal.of_append, letters_append, letters_news]
  have hnew : (new service).census.Coherent ∧ Informed (new service) [] :=
    ⟨coherent_new service, .nil service⟩
  exact (journal_induction (P := fun r j => r.census.Coherent ∧ Informed r j) hstep hnew actions).2

end Relay

/-! ## What is sent -/

/-- A message that has nothing to do with others reports on nobody, unless it is from outside. -/
theorem Ledger.reply_of_note {l : Ledger} {e : Event} {m : Message} {frame : Bytes}
    (h : Entry.reply m frame ∈ (l.note e).sent) : Entry.reply m frame ∈ l.sent ∨
      (∀ a, m.reports a = none) ∨ e = .posted m frame := by
  have hsend : ∀ {x : Entry}, Entry.reply m frame ∈ (l.send x).sent →
      Entry.reply m frame ∈ l.sent ∨ x = .reply m frame := by
    intro x h
    rcases List.mem_append.mp h with h | h
    · exact .inl h
    · exact .inr (List.mem_singleton.mp h).symm
  have hpop : ∀ {frame' : Bytes}, Entry.reply m frame ∈ (l.pop frame').sent →
      Entry.reply m frame ∈ l.sent := by
    intro frame' h
    unfold pop at h
    split at h
    · exact h
    · rcases hsend h with h | h
      · exact h
      · cases h
  cases e with
  | greeted | refused =>
    rcases hsend h with h | h
    · exact .inl h
    · cases h
      exact .inr (.inl fun _ => rfl)
  | posted =>
    rcases hsend h with h | h
    · exact .inl h
    · cases h
      exact .inr (.inr rfl)
  | answered | ordered | cut =>
    rcases hsend h with h | h
    · exact .inl h
    · cases h
  | relayed =>
    unfold note at h
    dsimp only at h
    split at h
    · rcases hsend h with h | h
      · exact .inl h
      · cases h
    · exact .inl h
  | served | released => exact .inl (hpop h)
  | _ => exact .inl h

theorem reply_of_ledger {history : List Event} {m : Message} {frame : Bytes}
    (hposted : .posted m frame ∉ history) (h : Entry.reply m frame ∈ (ledger history).sent)
    (a : Address) : m.reports a = none := by
  induction history using List.reverseRecOn with
  | nil => cases h
  | append_singleton history e ih =>
    rw [ledger_concat] at h
    rcases Ledger.reply_of_note h with h | h | h
    · exact ih (fun hmem => hposted (List.mem_append_left _ hmem)) h
    · exact h a
    · exact absurd (List.mem_append_right _ (List.mem_singleton.mpr h.symm)) hposted

/-- Someone was announced at an address, and nothing was said about the address since. -/
def Announces (xs : List Entry) (a : Address) (s : ClientId) : Prop :=
  ∃ pre m seats frame post, xs = pre ++ .letter (.said m seats) frame :: post ∧
    m.reports a = some true ∧ seats.get a = some s ∧
    ∀ x ∈ post, ∀ m ∈ x.message?, m.reports a = none

/-- Who is known from the letters in what was sent was announced there. -/
theorem announces_of_known {xs : List Entry} {a : Address} {s : ClientId}
    (hreplies : ∀ m frame, Entry.reply m frame ∈ xs → m.reports a = none)
    (h : known (xs.filterMap Entry.letter?) a = some s) : Announces xs a s := by
  obtain ⟨pre, m, seats, post, heq, hreports, hget, hpost⟩ := eq_append_of_known h
  obtain ⟨xs₁, xs₂, rfl, -, hxs₂⟩ := List.filterMap_eq_append_iff.mp heq
  obtain ⟨silent, x, rest, rfl, -, hx, hrest⟩ := List.filterMap_eq_cons_iff.mp hxs₂
  cases x with
  | letter l frame =>
    -- This is the announcement; neither letters nor replies behind it say anything else.
    cases hx
    refine ⟨xs₁ ++ silent, m, seats, frame, rest, by simp, hreports, hget, fun y hy m' hm' => ?_⟩
    cases y with
    | letter l' frame' =>
      have hl' : l' ∈ post := hrest ▸ List.mem_filterMap.mpr ⟨_, hy, rfl⟩
      cases l' with
      | said m'' seats' =>
        cases hm'
        exact Option.map_eq_none_iff.mp (hpost _ hl')
      | relayed => cases hm'
    | reply m'' frame' =>
      cases hm'
      refine hreplies _ frame' ?_
      simp [hy]
    | order => cases hm'
  | reply => cases hx
  | order => cases hx

/-- What is sent to a client is in order. The writer gets what was sent, from the first on. It begins with
the server's greeting and answer. Before there is any close order, each frame that is relayed comes
behind an announcement of its sender; and behind the message that someone has left the path nothing is
relayed from him, who has left. -/
structure Announced (r : Relay) (c : Client) (history : List Event) : Prop where
  outbox : c.outbox.Carries (history.flatMap Event.taken) ((ledger history).sent.map Entry.item)
  genuine : ∀ x ∈ (ledger history).sent, x.Genuine c
  begins : c.isAuthenticated = true → ∃ key frame auth seats frame' rest,
    (ledger history).sent.filter Entry.isFrame = .reply (.serverHello key) frame ::
      .letter (.said (.serverAuth auth) seats) frame' :: rest
  announced : ∀ pre s bytes frame post,
    (ledger history).stream = pre ++ .letter (.relayed s bytes) frame :: post →
    ∃ f, Frame.parse frame = .ok f ∧ Announces pre f.header.source s
  departed : ∀ pre a seats frame post,
    (ledger history).stream = pre ++ .letter (.said (.disconnected a) seats) frame :: post →
    ∃ s, seats.get a = some s ∧ r.Gone s ∧ ∀ bytes frame, .letter (.relayed s bytes) frame ∉ post

theorem Booked.announced {r : Relay} {c : Client} {history : List Event} (h : Booked c history)
    (hposted : ∀ m frame, Event.posted m frame ∉ history)
    (hcredible : Credible r.Gone (letters history)) : Announced r c history := by
  have hstream := hcredible.mono_left h.ordered.stream
  have hsent : (ledger history).stream <+: (ledger history).sent := List.takeWhile_prefix _
  refine ⟨h.outbox, h.genuine, fun hauth => ?_, fun pre s bytes frame post heq => ?_,
    fun pre a seats frame post heq => ?_⟩
  · have hbegins := h.begins
    generalize (ledger history).sent.filter Entry.isFrame = frames at hbegins
    generalize hphase : c.phase = p at hbegins
    rw [Client.isAuthenticated, hphase] at hauth
    cases hbegins with
    | fresh => cases hauth
    | greeted _ hfalse => cases hauth.symm.trans hfalse
    | answered => exact ⟨_, _, _, _, _, _, rfl⟩
  · have hmem : ∀ x ∈ pre ++ .letter (.relayed s bytes) frame :: post, x ∈ (ledger history).sent :=
      fun x hx => hsent.subset (heq ▸ hx)
    have hgenuine : (Entry.letter (.relayed s bytes) frame).Genuine c := h.genuine _ (hmem _ (by simp))
    -- What is sent for a letter that was relayed is the very frame.
    have hframe : frame = bytes := hgenuine
    have hletters : (ledger history).stream.filterMap Entry.letter? =
        pre.filterMap Entry.letter? ++ .relayed s bytes :: post.filterMap Entry.letter? := by
      rw [heq, List.filterMap_append]
      rfl
    obtain ⟨f, hparse, hknown⟩ := hstream.relayed _ s bytes _ hletters
    refine ⟨f, hframe ▸ hparse, announces_of_known (fun m frame' hreply => ?_) hknown⟩
    exact reply_of_ledger (hposted m frame') (hmem _ (List.mem_append_left _ hreply)) _
  · have hletters : (ledger history).stream.filterMap Entry.letter? =
        pre.filterMap Entry.letter? ++ .said (.disconnected a) seats ::
          post.filterMap Entry.letter? := by
      rw [heq, List.filterMap_append]
      rfl
    obtain ⟨s, hget, hgone, hpost⟩ := hstream.departed _ a seats _ hletters
    exact ⟨s, hget, hgone, fun bytes frame' hmem =>
      hpost bytes (List.mem_filterMap.mpr ⟨_, hmem, rfl⟩)⟩

namespace Relay

/-- **Announcements come before traffic.** In a run in which no messages come from outside, whatever jobs
are run in whatever order, what is sent to each client is in order. -/
theorem announced_run (service : Service) (actions : List Action)
    (hactions : ∀ d m, Action.send d m ∉ actions) (d : ClientId) :
    ∀ c, ((new service).run actions).client? d = some c →
      Announced ((new service).run actions) c ((new service).history actions d) := by
  intro c hc
  have hbooked := (booked_run service actions d).1 c hc
  refine hbooked.announced (fun m frame hmem => ?_) ((informed_run service actions).credible d)
  -- A message from outside is one that was asked for.
  obtain ⟨act, hact, hfrom⟩ := from_of_history hmem
  replace hfrom : act = .send d m := hfrom
  exact hactions d m (hfrom ▸ hact)

/-- The initiator that displaced the first one writes to the responder, behind the notice of its coming, and
leaves. All of this is delivered in the end. -/
theorem announced_run_displaced :
    (∀ d m, Action.send d m ∉ Displaced.actions ++ Displaced.farewell) ∧
    (∃ c, (Displaced.relay.run (Displaced.farewell.take 2)).client? ⟨1⟩ = some c ∧ c.inbox =
      [.notice .newInitiator, .relayed Displaced.reply, .notice (.disconnected .initiator)]) ∧
    (∃ c, (Displaced.relay.run Displaced.farewell).client? ⟨1⟩ = some c ∧ c.inbox = [] ∧
      c.outbox.items[3]? = some (.binary Displaced.reply)) ∧
    ∀ d c, (Displaced.relay.run Displaced.farewell).client? d = some c →
      Announced (Displaced.relay.run Displaced.farewell) c
        ((new Displaced.service).history (Displaced.actions ++ Displaced.farewell) d) := by
  have hactions : ∀ d m, Action.send d m ∉ Displaced.actions ++ Displaced.farewell := by
    intro d m
    simp [Displaced.actions, Displaced.connect, Displaced.farewell]
  have hrun : (new Displaced.service).run (Displaced.actions ++ Displaced.farewell) =
      Displaced.relay.run Displaced.farewell := run_append ..
  refine ⟨hactions, Displaced.awaits, Displaced.delivers, fun d c hc => ?_⟩
  rw [← hrun] at hc ⊢
  exact announced_run Displaced.service (Displaced.actions ++ Displaced.farewell) hactions d c hc

end Relay

end Rendezvous
