import Mathlib.Data.List.Nodup
import Rendezvous.Proofs.Frame
import Rendezvous.Proofs.Relay.Accounts

/-!
# No nonce is used twice

Both directions of a connection are sealed under one shared key, and the nonce is the header of the
frame. The server's headers carry its own cookie and consecutive numbers; the headers that it accepts
carry another cookie and, by themselves, consecutive numbers too. So no header occurs twice, whatever is
packed, refused or never sent.

* **`Event.nonce?`**, **`Event.packed?`** — the header that an event uses up, and the frame that the
  server packed with it.
* **`Client.Step.numbers`** — each step packs one frame, or accepts one, or leaves the numbers alone.
* **`Numbered`** — the invariant: the headers that were used are different, and lie behind.
* **`nonces_run`** — what follows for runs.
-/

namespace Rendezvous

/-! ## What is used up -/

namespace Event

/-- The frame that the server packed. -/
def packed? : Event → Option Bytes
  | .greeted _ frame | .answered _ _ frame | .refused _ frame | .packed _ _ frame | .posted _ frame
  | .served _ frame => some frame
  | _ => none

/-- The header that was used as a nonce, by the server or by its client. -/
def nonce? (e : Event) : Option Bytes :=
  match e with
  | .accepted _ bytes => some (bytes.take 24)
  | e => e.packed?.map fun frame => frame.take 24

end Event

namespace Client

variable {service : Service} {c c' : Client} {es : List Event}

theorem pack_header {destination : Address} {m : Message} {frame : Bytes}
    (h : c.pack destination m = .ok (frame, c')) :
    Header.parse frame = .ok (c.nextHeader destination) ∧ c'.cookie = c.cookie ∧
      c'.expected = c.expected ∧ c'.nextNumber.combined = c.nextNumber.combined + 1 := by
  obtain ⟨-, header, payload, next, hheader, -, hnext, rfl, rfl⟩ := pack_eq_ok.mp h
  have hparse := Header.parse_append header payload
  rw [Header.ofOctets_of_toOctets hheader] at hparse
  exact ⟨hparse, rfl, rfl, SequenceNumber.combined_of_next hnext⟩

theorem pack_sentinel (h : c.nextNumber.isSentinel = true) (destination : Address) (m : Message) :
    c.pack destination m = .error (.overflowSentinel .outbound) := by
  simp [pack, h, bind, Except.bind, throw, throwThe, MonadExceptOf.throw]

@[simp] theorem filterMap_recordPings (a : Admission) :
    a.recordPings.filterMap Event.packed? = [] ∧ a.recordPings.filterMap Event.nonce? = [] := by
  unfold Admission.recordPings
  split <;> exact ⟨rfl, rfl⟩

theorem Step.numbers (h : Step service c es c') :
    (es.filterMap Event.nonce? = [] ∧ es.filterMap Event.packed? = [] ∧ c'.cookie = c.cookie ∧
      c'.expected = c.expected ∧ c'.nextNumber = c.nextNumber) ∨
    (∃ f bytes next, es = [.accepted f bytes] ∧ c.accepts? bytes = some f ∧
      c.acceptHeader f.header = .ok next ∧ c' = { c with expected := some next }) ∨
    (∃ destination m frame c₁, c.pack destination m = .ok (frame, c₁) ∧
      es.filterMap Event.nonce? = [frame.take 24] ∧ es.filterMap Event.packed? = [frame] ∧
      c'.cookie = c₁.cookie ∧ c'.expected = c₁.expected ∧ c'.nextNumber = c₁.nextNumber) := by
  cases h with
  | accept hf hnext => exact .inr (.inl ⟨_, _, _, rfl, hf, hnext, rfl⟩)
  | introduce h =>
    obtain ⟨-, rfl⟩ := introduce_eq_ok.mp h
    exact .inl ⟨rfl, rfl, rfl, rfl, rfl⟩
  | authorize h =>
    obtain ⟨-, -, -, -, -, -, -, rfl⟩ := authorize_eq_ok.mp h
    exact .inl ⟨rfl, rfl, rfl, rfl, rfl⟩
  | greet _ hpack => exact .inr (.inr ⟨_, _, _, _, hpack, rfl, rfl, rfl, rfl, rfl⟩)
  | @answer a address auth seats frame c₁ _ hpack =>
    obtain ⟨outbox, heq⟩ := Relay.seated_eq c₁ a address frame
    -- The order to send pings uses nothing up.
    obtain ⟨hpacked, hnonce⟩ := filterMap_recordPings a
    rw [heq]
    refine .inr (.inr ⟨_, _, frame, c₁, hpack, ?_, ?_, rfl, rfl, rfl⟩)
    · show frame.take 24 :: a.recordPings.filterMap Event.nonce? = _
      rw [hnonce]
    · show frame :: a.recordPings.filterMap Event.packed? = _
      rw [hpacked]
  | refuse _ hpack => exact .inr (.inr ⟨_, _, _, _, hpack, rfl, rfl, rfl, rfl, rfl⟩)
  | pack hpack => exact .inr (.inr ⟨_, _, _, _, hpack, rfl, rfl, rfl, rfl, rfl⟩)
  | post h =>
    obtain ⟨-, hpack⟩ := sending_eq_ok.mp h
    exact .inr (.inr ⟨_, _, _, _, hpack, rfl, rfl, rfl, rfl, rfl⟩)
  | serve _ h =>
    obtain ⟨-, hpack⟩ := sending_eq_ok.mp h
    exact .inr (.inr ⟨_, _, _, _, hpack, rfl, rfl, rfl, rfl, rfl⟩)
  | _ => exact .inl ⟨rfl, rfl, rfl, rfl, rfl⟩

end Client

/-! ## The headers that were used -/

/-- A header of the server's that comes before its next one, or one of the client's that comes before
what the client's next frame has to carry. -/
def Behind (c : Client) (h : Header) : Prop :=
  (h.cookie = c.cookie ∧ h.number.combined < c.nextNumber.combined) ∨
  (h.cookie ≠ c.cookie ∧ ∃ e, c.expected = some e ∧ h.number.combined < e.number.combined)

/-- The headers that were used in a client's history. -/
structure Numbered (c : Client) (history : List Event) : Prop where
  reflected : ∀ e, c.expected = some e → e.cookie ≠ c.cookie
  behind : ∀ bytes ∈ history.filterMap Event.nonce?, ∃ h, Header.parse bytes = .ok h ∧ Behind c h
  nodup : (history.filterMap Event.nonce?).Nodup
  count : ∃ draw rest, history = .opened draw :: rest ∧ c.cookie = draw.cookie ∧
    (∀ k frame, (rest.filterMap Event.packed?)[k]? = some frame → ∃ destination number,
      Header.parse frame = .ok ⟨c.cookie, .server, destination, number⟩ ∧
      number.combined = draw.number.combined + k) ∧
    c.nextNumber.combined = draw.number.combined + (rest.filterMap Event.packed?).length

namespace Numbered

variable {service : Service} {c c' c₁ : Client} {history es : List Event}

theorem newcomer (r : Relay) (path : PathId) (key : PublicKey) (subprotocol : String)
    (draw : Relay.Draw) :
    Numbered (r.newcomer path key subprotocol draw) [.opened draw] :=
  ⟨nofun, nofun, .nil, draw, [], rfl, rfl, nofun, (Nat.add_zero _).symm⟩

theorem of_eq (h : Numbered c history) (hnonce : es.filterMap Event.nonce? = [])
    (hpacked : es.filterMap Event.packed? = []) (hcookie : c'.cookie = c.cookie)
    (hexpected : c'.expected = c.expected) (hnumber : c'.nextNumber = c.nextNumber) :
    Numbered c' (history ++ es) := by
  obtain ⟨draw, rest, rfl, hdraw, hframes, hcount⟩ := h.count
  refine ⟨?_, ?_, ?_, draw, rest ++ es, rfl, hcookie.trans hdraw, ?_, ?_⟩
  · rw [hexpected, hcookie]
    exact h.reflected
  · rw [List.filterMap_append, hnonce, List.append_nil]
    unfold Behind
    rw [hcookie, hexpected, hnumber]
    exact h.behind
  · rw [List.filterMap_append, hnonce, List.append_nil]
    exact h.nodup
  · rw [List.filterMap_append, hpacked, List.append_nil, hcookie]
    exact hframes
  · rw [List.filterMap_append, hpacked, List.append_nil, hnumber]
    exact hcount

/-- A header that does not lie behind was not used. -/
theorem notMem (h : Numbered c history) {bytes : Bytes} {header : Header}
    (hparse : Header.parse bytes = .ok header) (hahead : ¬ Behind c header) :
    bytes.take 24 ∉ history.filterMap Event.nonce? := by
  intro hmem
  obtain ⟨header', hparse', hbehind⟩ := h.behind _ hmem
  rw [Header.parse_take] at hparse'
  cases hparse.symm.trans hparse'
  exact hahead hbehind

/-- A header that does not lie behind is used. What is to be shown is only that it lies behind now, and
that what lay behind still does. -/
theorem use (h : Numbered c history) {bytes : Bytes} {header : Header}
    (hparse : Header.parse bytes = .ok header) (hnonce : es.filterMap Event.nonce? = [bytes.take 24])
    (hahead : ¬ Behind c header) (hbehind : Behind c' header)
    (hkept : ∀ g, Behind c g → Behind c' g) :
    (∀ b ∈ (history ++ es).filterMap Event.nonce?, ∃ g, Header.parse b = .ok g ∧ Behind c' g) ∧
      ((history ++ es).filterMap Event.nonce?).Nodup := by
  rw [List.filterMap_append, hnonce]
  constructor
  · intro b hb
    rcases List.mem_append.mp hb with hb | hb
    · obtain ⟨g, hg, hbefore⟩ := h.behind b hb
      exact ⟨g, hg, hkept g hbefore⟩
    · cases List.mem_singleton.mp hb
      exact ⟨header, (Header.parse_take bytes).mpr hparse, hbehind⟩
  · refine List.Nodup.append h.nodup (List.nodup_singleton _) ?_
    exact List.disjoint_singleton.mpr (h.notMem hparse hahead)

theorem accept (h : Numbered c history) {f : Frame} {bytes : Bytes} {next : Expectation}
    (haccepts : c.accepts? bytes = some f) (hnext : c.acceptHeader f.header = .ok next) :
    Numbered { c with expected := some next } (history ++ [.accepted f bytes]) := by
  obtain ⟨hparse, -, -⟩ := Client.accepts?_eq_some.mp haccepts
  obtain ⟨hcookie, hnumber, hdue⟩ := Client.acceptHeader_eq_ok.mp hnext
  have hsucc := SequenceNumber.combined_of_next hnumber
  -- The first frame is checked against the server's cookie, and the cookie is kept.
  have hreflected : f.header.cookie ≠ c.cookie := by
    rcases hdue with ⟨-, hne, -⟩ | hsome
    · exact hne
    · exact h.reflected _ hsome
  -- The frame has the number that is due, if any is, and all others of the client's lie behind that.
  have hlast : ∀ e, c.expected = some e → e.number.combined = f.header.number.combined := by
    intro e he
    rcases hdue with ⟨hnone, -⟩ | hsome
    · cases hnone.symm.trans he
    · cases hsome.symm.trans he
      rfl
  have hahead : ¬ Behind c f.header := by
    rintro (⟨heq, -⟩ | ⟨-, e, he, hlt⟩)
    · exact hreflected heq
    · rw [hlast e he] at hlt
      exact Nat.lt_irrefl _ hlt
  have hused : Behind { c with expected := some next } f.header :=
    .inr ⟨hreflected, next, rfl, by omega⟩
  have hkept : ∀ g, Behind c g → Behind { c with expected := some next } g := by
    rintro g (hserver | ⟨hne, e, he, hlt⟩)
    · exact .inl hserver
    · rw [hlast e he] at hlt
      exact .inr ⟨hne, next, rfl, by omega⟩
  have hnonce : [Event.accepted f bytes].filterMap Event.nonce? = [bytes.take 24] := rfl
  obtain ⟨hbehind, hnodup⟩ := h.use (Frame.header_of_parse hparse) hnonce hahead hused hkept
  obtain ⟨draw, rest, rfl, hdraw, hframes, hcount⟩ := h.count
  refine ⟨fun e he => ?_, hbehind, hnodup, draw, rest ++ [.accepted f bytes], rfl, hdraw, ?_, ?_⟩
  · cases he
    rw [hcookie]
    exact hreflected
  · rw [List.filterMap_append]
    exact (List.append_nil (rest.filterMap Event.packed?)).symm ▸ hframes
  · rw [List.filterMap_append]
    exact (List.append_nil (rest.filterMap Event.packed?)).symm ▸ hcount

theorem pack (h : Numbered c history) {destination : Address} {m : Message} {frame : Bytes}
    (hpack : c.pack destination m = .ok (frame, c₁))
    (hnonce : es.filterMap Event.nonce? = [frame.take 24])
    (hpacked : es.filterMap Event.packed? = [frame]) (hcookie' : c'.cookie = c₁.cookie)
    (hexpected' : c'.expected = c₁.expected) (hnumber' : c'.nextNumber = c₁.nextNumber) :
    Numbered c' (history ++ es) := by
  obtain ⟨hheader, hcookie, hexpected, hnumber⟩ := Client.pack_header hpack
  rw [← hcookie'] at hcookie
  rw [← hexpected'] at hexpected
  rw [← hnumber'] at hnumber
  -- The header has the server's next number, and all that was used of the server's lies behind that.
  have hahead : ¬ Behind c (c.nextHeader destination) := by
    rintro (⟨-, hlt⟩ | ⟨hne, -⟩)
    · exact Nat.lt_irrefl _ hlt
    · exact hne rfl
  have hused : Behind c' (c.nextHeader destination) := by
    refine .inl ⟨hcookie.symm, ?_⟩
    rw [hnumber]
    exact Nat.lt_succ_self _
  have hkept : ∀ g, Behind c g → Behind c' g := by
    intro g hg
    unfold Behind
    rw [hcookie, hexpected, hnumber]
    exact hg.imp_left fun hlt => ⟨hlt.1, Nat.lt_succ_of_lt hlt.2⟩
  obtain ⟨hbehind, hnodup⟩ := h.use hheader hnonce hahead hused hkept
  obtain ⟨draw, rest, rfl, hdraw, hframes, hcount⟩ := h.count
  refine ⟨?_, hbehind, hnodup, draw, rest ++ es, rfl, hcookie.trans hdraw, ?_, ?_⟩
  · rw [hexpected, hcookie]
    exact h.reflected
  · intro k frame' hk
    rw [List.filterMap_append, hpacked] at hk
    rw [hcookie]
    rcases Nat.lt_or_ge k (rest.filterMap Event.packed?).length with hlt | hge
    · rw [List.getElem?_append_left hlt] at hk
      exact hframes k frame' hk
    · -- It is the frame that was just packed.
      rw [List.getElem?_append_right hge] at hk
      obtain ⟨hlt, heq⟩ := List.getElem?_eq_some_iff.mp hk
      rw [List.getElem_singleton] at heq
      rw [List.length_singleton] at hlt
      subst heq
      exact ⟨destination, c.nextNumber, hheader, by omega⟩
  · rw [List.filterMap_append, hpacked, List.length_append, List.length_singleton, hnumber, hcount,
      Nat.add_assoc]

theorem step (h : Numbered c history) (hstep : Client.Step service c es c') :
    Numbered c' (history ++ es) := by
  rcases hstep.numbers with ⟨hnonce, hpacked, hcookie, hexpected, hnumber⟩ |
    ⟨f, bytes, next, rfl, haccepts, hnext, rfl⟩ |
    ⟨destination, m, frame, c₁, hpack, hnonce, hpacked, hcookie, hexpected, hnumber⟩
  · exact h.of_eq hnonce hpacked hcookie hexpected hnumber
  · exact h.accept haccepts hnext
  · exact h.pack hpack hnonce hpacked hcookie hexpected hnumber

end Numbered

/-! ## Runs -/

namespace Relay

theorem numbered_run (service : Service) (actions : List Action) (id : ClientId) :
    (∀ c, ((new service).run actions).client? id = some c →
      Numbered c ((new service).history actions id)) ∧
    (((new service).run actions).client? id = none → (new service).history actions id = []) :=
  history_induction (P := Numbered) Numbered.newcomer
    (fun _ _ _ _ hstep h => h.step hstep) actions id

/-- A client that has used up its numbers does not get any back. -/
theorem sentinel_run {service : Service} {actions : List Action} {id : ClientId} {c c' : Client}
    (hc : ((new service).run actions).client? id = some c)
    (hsentinel : c.nextNumber.isSentinel = true) (more : List Action)
    (hc' : ((new service).run (actions ++ more)).client? id = some c') :
    c'.nextNumber.isSentinel = true := by
  obtain ⟨draw, rest, hhistory, -, -, hcount⟩ := ((numbered_run service actions id).1 c hc).count
  obtain ⟨draw', rest', hhistory', -, -, hcount'⟩ :=
    ((numbered_run service (actions ++ more) id).1 c' hc').count
  -- The later history goes on from the earlier one, so the numbers only grow.
  rw [history_append, hhistory, List.cons_append] at hhistory'
  cases hhistory'
  rw [SequenceNumber.isSentinel_iff] at hsentinel ⊢
  have hbound := c'.nextNumber.combined_lt
  rw [List.filterMap_append, List.length_append] at hcount'
  omega

/-- **No nonce is used twice.** Over a whole run the headers of all frames that the server packs for a
client, sent or not, and of all frames to the server that it accepts from the client are different. The
server's carry the cookie that was drawn for the connection and the server's address, and number on from
the number that was drawn; so one is used up by each frame that is packed, and by nothing else. A message
that cannot be packed leaves the relay as it is, and once the numbers are used up none can be packed any
more. -/
theorem nonces_run (service : Service) (actions : List Action) (id : ClientId) :
    (((new service).history actions id).filterMap Event.nonce?).Nodup ∧
    ∀ c, ((new service).run actions).client? id = some c →
      (∃ draw rest, (new service).history actions id = .opened draw :: rest ∧
        c.cookie = draw.cookie ∧
        (∀ k frame, (rest.filterMap Event.packed?)[k]? = some frame → ∃ destination number,
          Header.parse frame = .ok ⟨draw.cookie, .server, destination, number⟩ ∧
          number.combined = draw.number.combined + k) ∧
        c.nextNumber.combined = draw.number.combined + (rest.filterMap Event.packed?).length) ∧
      (∀ destination m e, c.pack destination m = .error e →
        ((new service).run actions).perform (.pack id destination m) = (new service).run actions) ∧
      (c.nextNumber.isSentinel = true → ∀ more c',
        ((new service).run (actions ++ more)).client? id = some c' →
        ∀ destination m, c'.pack destination m = .error (.overflowSentinel .outbound)) := by
  obtain ⟨hnumbered, hnone⟩ := numbered_run service actions id
  refine ⟨?_, fun c hc => ⟨?_, fun destination m e hpack => ?_, fun hsentinel more c' hc' => ?_⟩⟩
  · cases hc : ((new service).run actions).client? id with
    | none =>
      rw [hnone hc]
      exact .nil
    | some c => exact (hnumbered c hc).nodup
  · obtain ⟨draw, rest, hhistory, hcookie, hframes, hcount⟩ := (hnumbered c hc).count
    rw [hcookie] at hframes
    exact ⟨draw, rest, hhistory, hcookie, hframes, hcount⟩
  · show (Relay.update _ id fun c => Prod.snd <$> c.pack destination m).2 = _
    rw [update, hc]
    dsimp only
    rw [hpack]
    rfl
  · exact Client.pack_sentinel (sentinel_run hc hsentinel more hc')

end Relay

end Rendezvous
