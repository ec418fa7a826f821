import Rendezvous.Proofs.Relay.Journal
import Rendezvous.Proofs.Relay.Channels

/-!
# Accounting for every client

The journal of a run is complete: whatever changes about a client is something that its history notes,
in the same order, and each event changes the client in the one way that its name says. So what holds of
all clients and their histories is proved from the few steps that a client can take, whichever handler
takes them.

* **`Client.Step`** — one step of one client, with its events.
* **`Relay.Accounts`** — a journal accounts for what changed about the clients from one relay to another.
* **`accounts_perform`** — what an action records accounts for the action.
* **`history_induction`** — what is true of a new client, and kept by each step of a client, holds of all
  clients and their histories after every run.
-/

namespace Rendezvous

/-! ## The steps of one client -/

namespace Client

/-- One step of a client, with what happens on its connection. -/
inductive Step (service : Service) (c : Client) : List Event → Client → Prop where
  | move (path : PathId) : Step service c [] { c with path := path }
  | leave : Step service c [] { c with gone := true }
  | accept {bytes : Bytes} {f : Frame} {next : Expectation} (hf : c.accepts? bytes = some f)
      (hnext : c.acceptHeader f.header = .ok next) :
      Step service c [.accepted f bytes] { c with expected := some next }
  | introduce {key : PublicKey} {c' : Client} (h : c.introduce key = .ok c') :
      Step service c [.introduced key] c'
  | authorize {auth : ClientAuth} {c' : Client} (h : c.authorize service auth = .ok c') :
      Step service c [.admitted auth] c'
  | drop {responder : Address} (hauth : c.isAuthenticated = true)
      (hrole : c.role? = some .initiator) : Step service c [.dropped responder] c
  | greet {frame : Bytes} {c' : Client} (hphase : c.phase = .fresh)
      (h : c.pack .server (.serverHello c.session.publicKey) = .ok (frame, c')) :
      Step service c [.greeted c.session.publicKey frame]
        ({ c' with phase := .greeted }.push (.binary frame))
  | answer {a : Admission} {address : Address} {auth : ServerAuth} {seats : Slots ClientId}
      {frame : Bytes} {c' : Client} (hphase : c.phase = .admitted a)
      (h : c.pack address (.serverAuth auth) = .ok (frame, c')) :
      Step service c (.answered auth seats frame :: a.recordPings) (Relay.seated c' a address frame)
  | refuse {id : FrameId} {frame : Bytes} {c' : Client} (hauth : c.isAuthenticated = true)
      (h : c.pack c.id (.sendError id) = .ok (frame, c')) :
      Step service c [.refused id frame] (c'.push (.binary frame))
  | pack {destination : Address} {m : Message} {frame : Bytes} {c' : Client}
      (h : c.pack destination m = .ok (frame, c')) :
      Step service c [.packed destination m frame] c'
  | post {m : Message} {frame : Bytes} {c' : Client} (h : c.sending m = .ok (frame, c')) :
      Step service c [.posted m frame] (c'.push (.binary frame))
  | order {item : Outbound} (h : ∀ frame, item ≠ .binary frame) :
      Step service c [.ordered item] (c.push item)
  | tell {m : Message} {seats : Slots ClientId} (hauth : c.isAuthenticated = true) :
      Step service c [.told m seats] { c with inbox := c.inbox ++ [.notice m] }
  | pass {sender : ClientId} {frame : Bytes} (hauth : c.isAuthenticated = true)
      (hinbox : c.inbox = []) : Step service c [.relayed sender frame] (c.push (.binary frame))
  | queue {sender : ClientId} {frame : Bytes} (hauth : c.isAuthenticated = true)
      (hinbox : c.inbox ≠ []) :
      Step service c [.relayed sender frame] { c with inbox := c.inbox ++ [.relayed frame] }
  | serve {m : Message} {rest : List Delivery} {frame : Bytes} {c' : Client}
      (hinbox : c.inbox = .notice m :: rest) (h : c.sending m = .ok (frame, c')) :
      Step service c [.served m frame] ({ c' with inbox := rest }.push (.binary frame))
  | release {frame : Bytes} {rest : List Delivery} (hinbox : c.inbox = .relayed frame :: rest) :
      Step service c [.released frame] ({ c with inbox := rest }.push (.binary frame))
  | cut {m : Message} {rest : List Delivery} {e : ProtocolError}
      (hinbox : c.inbox = .notice m :: rest) (h : c.sending m = .error e) :
      Step service c [.cut e.closeCode] ({ c with inbox := [] }.close e.closeCode)
  | collect : Step service c [.collected c.outbox.items] { c with outbox := c.outbox.drain.2 }
  | hangUp : Step service c [.hungUp c.outbox.items] { c with outbox := c.outbox.dropWriter }

/-- Some steps of a client, one after the other, with all their events. -/
inductive Steps (service : Service) (c : Client) : List Event → Client → Prop where
  | refl : Steps service c [] c
  | tail {es es' : List Event} {c' c'' : Client} (h : Steps service c es c')
      (step : Step service c' es' c'') : Steps service c (es ++ es') c''

variable {service : Service} {c c' c'' : Client} {es es' : List Event}

theorem Steps.single (h : Step service c es c') : Steps service c es c' := .tail .refl h

theorem Steps.trans (h : Steps service c es c') (h' : Steps service c' es' c'') :
    Steps service c (es ++ es') c'' := by
  induction h' with
  | refl =>
    rw [List.append_nil]
    exact h
  | tail _ step ih =>
    rw [← List.append_assoc]
    exact ih.tail step

/-- What each step keeps, some steps keep. -/
theorem Steps.keep {P : Client → List Event → Prop}
    (step : ∀ c es c' history, Step service c es c' → P c history → P c' (history ++ es))
    (h : Steps service c es c') (history : List Event) (hc : P c history) :
    P c' (history ++ es) := by
  induction h with
  | refl =>
    rw [List.append_nil]
    exact hc
  | tail _ hstep ih =>
    rw [← List.append_assoc]
    exact step _ _ _ _ hstep ih

theorem sending_eq_ok {m : Message} {frame : Bytes} :
    c.sending m = .ok (frame, c') ↔ c.isAuthenticated = true ∧ c.pack c.id m = .ok (frame, c') := by
  unfold sending
  split
  · next h => simp [h]
  · next h => simp [h]

/-- A client at a later time. With what it was created stays, and it has gone for good once it has. -/
structure Later (c c' : Client) : Prop where
  session_eq : c'.session = c.session
  cookie_eq : c'.cookie = c.cookie
  initiatorKey_eq : c'.initiatorKey = c.initiatorKey
  gone : c.gone = true → c'.gone = true

theorem Later.refl (c : Client) : Later c c := ⟨rfl, rfl, rfl, fun hgone => hgone⟩

theorem Later.trans (h : Later c c') (h' : Later c' c'') : Later c c'' :=
  ⟨h'.session_eq.trans h.session_eq, h'.cookie_eq.trans h.cookie_eq,
    h'.initiatorKey_eq.trans h.initiatorKey_eq, fun hgone => h'.gone (h.gone hgone)⟩

theorem Step.later (h : Step service c es c') : Later c c' := by
  cases h with
  | leave => exact ⟨rfl, rfl, rfl, fun _ => rfl⟩
  | introduce h =>
    obtain ⟨-, rfl⟩ := introduce_eq_ok.mp h
    exact ⟨rfl, rfl, rfl, fun hgone => hgone⟩
  | authorize h =>
    obtain ⟨-, -, -, -, -, -, -, rfl⟩ := authorize_eq_ok.mp h
    exact ⟨rfl, rfl, rfl, fun hgone => hgone⟩
  | greet _ h | refuse _ h | pack h =>
    obtain ⟨next, -, rfl⟩ := eq_of_pack h
    exact ⟨rfl, rfl, rfl, fun hgone => hgone⟩
  | @answer a address auth seats frame c₁ _ h =>
    obtain ⟨next, -, rfl⟩ := eq_of_pack h
    obtain ⟨outbox, heq⟩ := Relay.seated_eq { c with nextNumber := next } a address frame
    rw [heq]
    exact ⟨rfl, rfl, rfl, fun hgone => hgone⟩
  | post h | serve _ h =>
    obtain ⟨next, -, rfl⟩ := eq_of_pack (sending_eq_ok.mp h).2
    exact ⟨rfl, rfl, rfl, fun hgone => hgone⟩
  | _ => exact ⟨rfl, rfl, rfl, fun hgone => hgone⟩

theorem Steps.later (h : Steps service c es c') : Later c c' := by
  induction h with
  | refl => exact .refl c
  | tail _ step ih => exact ih.trans step.later

/-! ## Delivering -/

/-- What waits makes no difference to what is packed. -/
theorem pack_inbox (c : Client) (inbox : List Delivery) (destination : Address) (m : Message) :
    { c with inbox := inbox }.pack destination m =
      (fun p => (p.1, { p.2 with inbox := inbox })) <$> c.pack destination m := by
  unfold pack
  split
  · rfl
  · simp only [map_bind, map_pure]
    rfl

theorem sending_inbox (c : Client) (inbox : List Delivery) (m : Message) :
    { c with inbox := inbox }.sending m =
      (fun p => (p.1, { p.2 with inbox := inbox })) <$> c.sending m := by
  have hpack := pack_inbox c inbox c.id m
  unfold sending
  by_cases h : c.isAuthenticated = true
  · rw [if_pos h]
    exact (if_pos h).trans hpack
  · rw [if_neg h]
    exact if_neg h

/-- A client to which everything in a list was delivered. If it could not be, the connection is to
end. -/
def afterDelivery (c : Client) (deliveries : List Delivery) : Client :=
  match c.deliverAll deliveries with
  | (none, c) => c
  | (some e, c) => c.close e.closeCode

/-- Delivering is a sequence of steps, each of which takes the first of what waits. The inbox is cleared
only in the end, but until then nobody looks into it. -/
theorem steps_delivery (deliveries : List Delivery) (c : Client) :
    Steps service { c with inbox := deliveries } (c.recordDelivery deliveries)
      (c.afterDelivery deliveries) := by
  induction deliveries generalizing c with
  | nil => exact .refl
  | cons d rest ih =>
    cases d with
    | relayed frame =>
      have hrelease : Step service { c with inbox := .relayed frame :: rest } [.released frame]
          { c.push (.binary frame) with inbox := rest } := .release rfl
      exact (Steps.single hrelease).trans (ih (c.push (.binary frame)))
    | notice m =>
      -- What a notice is packed into does not depend on what else waits.
      have hinbox := sending_inbox c (.notice m :: rest) m
      unfold recordDelivery afterDelivery
      rw [deliverAll, send_eq]
      cases hsend : c.sending m with
      | error e =>
        rw [hsend] at hinbox
        exact .single (.cut rfl hinbox)
      | ok packed =>
        obtain ⟨frame, c'⟩ := packed
        have hpacked : { c with inbox := .notice m :: rest }.sending m =
            .ok (frame, { c' with inbox := .notice m :: rest }) := by
          rw [hinbox, hsend]
          rfl
        have hserve := @Step.serve service _ m rest frame _ rfl hpacked
        exact (Steps.single hserve).trans (ih (c'.push (.binary frame)))

end Client

/-! ## Accounts of all clients -/

namespace Relay

open Client (Step Steps)

/-- A journal accounts for what changed about the clients from one relay to another. -/
structure Accounts (r : Relay) (j : Journal) (s : Relay) : Prop where
  service : s.service = r.service
  client : ∀ id c, r.client? id = some c →
    ∃ c', s.client? id = some c' ∧ Steps r.service c (j.of id) c'
  none : ∀ id, r.client? id = none → s.client? id = none ∧ j.of id = []

variable {r s t : Relay} {j j' : Journal} {id : ClientId} {c c' : Client} {es : List Event}

theorem Accounts.of_clients (hservice : s.service = r.service) (hclients : s.clients = r.clients) :
    Accounts r [] s := by
  have hclient : ∀ id, s.client? id = r.client? id := fun id => by rw [client?, hclients, client?]
  exact ⟨hservice, fun id c hc => ⟨c, (hclient id).trans hc, .refl⟩,
    fun id hc => ⟨(hclient id).trans hc, rfl⟩⟩

theorem Accounts.refl (r : Relay) : Accounts r [] r := .of_clients rfl rfl

theorem Accounts.trans (h : Accounts r j s) (h' : Accounts s j' t) : Accounts r (j ++ j') t := by
  refine ⟨h'.service.trans h.service, fun id c hc => ?_, fun id hc => ?_⟩
  · obtain ⟨c', hc', hsteps⟩ := h.client id c hc
    obtain ⟨c'', hc'', hsteps'⟩ := h'.client id c' hc'
    rw [h.service] at hsteps'
    rw [Journal.of_append]
    exact ⟨c'', hc'', hsteps.trans hsteps'⟩
  · obtain ⟨hs, hnil⟩ := h.none id hc
    obtain ⟨ht, hnil'⟩ := h'.none id hs
    rw [Journal.of_append, hnil, hnil']
    exact ⟨ht, rfl⟩

/-- Only one client changed. -/
theorem Accounts.of_one (hservice : s.service = r.service) (hc : r.client? id = some c)
    (hc' : s.client? id = some c') (hothers : ∀ other, id ≠ other → s.client? other = r.client? other)
    (h : Steps r.service c es c') : Accounts r (es.map (id, ·)) s := by
  refine ⟨hservice, fun other d hd => ?_, fun other hd => ?_⟩
  · by_cases heq : id = other
    · subst heq
      cases hc.symm.trans hd
      rw [Journal.of_map_self]
      exact ⟨c', hc', h⟩
    · rw [Journal.of_map_ne heq]
      exact ⟨d, (hothers other heq).trans hd, .refl⟩
  · have hne : id ≠ other := by
      rintro rfl
      cases hc.symm.trans hd
    exact ⟨(hothers other hne).trans hd, Journal.of_map_ne hne es⟩

theorem accounts_setClient (hc : r.client? id = some c) (h : Steps r.service c es c') :
    Accounts r (es.map (id, ·)) (r.setClient id c') := by
  refine .of_one rfl hc ?_ (fun other hne => ?_) h
  · rw [client?_setClient, if_pos rfl, hc]
    rfl
  · rw [client?_setClient, if_neg hne]

theorem accounts_modifyClient {f : Client → Client} {g : Client → List Event}
    (h : ∀ c, r.client? id = some c → Steps r.service c (g c) (f c)) :
    Accounts r (r.note id g) (r.modifyClient id f) := by
  cases hc : r.client? id with
  | none =>
    rw [note_none hc]
    refine ⟨rfl, fun other d hd => ?_, fun other hd => ?_⟩
    · have hne : id ≠ other := by
        rintro rfl
        cases hc.symm.trans hd
      exact ⟨d, by rw [client?_modifyClient, if_neg hne, hd], .refl⟩
    · exact ⟨by simp [client?_modifyClient, hd], rfl⟩
  | some c =>
    rw [note_eq hc]
    refine .of_one rfl hc ?_ (fun other hne => ?_) (h c hc)
    · rw [client?_modifyClient, if_pos rfl, hc]
      rfl
    · rw [client?_modifyClient, if_neg hne]

/-- An operation that fails neither changes the client nor is noted. -/
theorem accounts_update {f : Client → Except ProtocolError Client} {g : Client → List Event}
    (hok : ∀ c c', r.client? id = some c → f c = .ok c' → Steps r.service c (g c) c')
    (herror : ∀ c e, r.client? id = some c → f c = .error e → g c = []) :
    Accounts r (r.note id g) (r.update id f).2 := by
  rcases update_cases r id f with ⟨hc, heq⟩ | ⟨c, e, hc, hf, heq⟩ | ⟨c, c', hc, hf, heq⟩
  · rw [heq, note_none hc]
    exact .refl r
  · rw [heq, note_eq hc, herror c e hc hf]
    exact .refl r
  · rw [heq, note_eq hc]
    exact accounts_setClient hc (hok c c' hc hf)

/-! ## Telling and closing -/

theorem accounts_count (r : Relay) (f : Metrics → Metrics) : Accounts r [] (r.count f) :=
  .of_clients rfl rfl

theorem accounts_close (r : Relay) (id : ClientId) (code : CloseCode) :
    Accounts r (r.note id fun _ => [.ordered (.close code)]) (r.close id code) :=
  accounts_modifyClient fun _ _ => .single (.order nofun)

theorem client?_fail (r : Relay) (id other : ClientId) (e : ProtocolError) :
    (r.fail id e).client? other =
      if id = other then (r.client? other).map fun c => c.close e.closeCode
      else r.client? other := by
  unfold fail
  dsimp only
  split <;> exact client?_modifyClient ..

theorem accounts_fail (r : Relay) (id : ClientId) (e : ProtocolError) :
    Accounts r (r.note id fun _ => [.ordered (.close e.closeCode)]) (r.fail id e) := by
  unfold fail
  dsimp only
  split
  · exact (accounts_count r _).trans (accounts_close ..)
  · exact accounts_close r id e.closeCode

/-- A client that is there and has got its address at some time. -/
def IsSeated (r : Relay) (id : ClientId) : Prop :=
  ∃ c, r.census.client? id = some c ∧ c.isAuthenticated = true

theorem IsSeated.client (h : r.IsSeated id) :
    ∃ c, r.client? id = some c ∧ c.isAuthenticated = true := by
  obtain ⟨c, hc, hauth⟩ := h
  obtain ⟨c', hc', rfl⟩ := of_census_client? hc
  exact ⟨c', hc', hauth⟩

theorem isSeated_of_get (hr : r.census.Coherent) {path : PathId} {a : Address}
    (h : (r.slots path).get a = some id) : r.IsSeated id := by
  obtain ⟨p, c, hc, hoccupant⟩ := occupant_of_get hr h
  exact ⟨c.standing, census_client? hc, hoccupant.authenticated⟩

theorem mem_audience {path : PathId} {role : Role} :
    id ∈ r.audience path role ↔ ∃ a, (r.slots path).get a = some id ∧
      (role = .initiator ∧ a.kind = .responder ∨ role = .responder ∧ a = .initiator) := by
  unfold audience
  cases role with
  | initiator =>
    rw [List.mem_map]
    constructor
    · rintro ⟨⟨a, d⟩, hmem, rfl⟩
      obtain ⟨hkind, hget⟩ := (Slots.mem_responders_iff ..).mp hmem
      exact ⟨a, hget, .inl ⟨rfl, (Address.isResponder_iff a).mp hkind⟩⟩
    · rintro ⟨a, hget, ⟨-, hkind⟩ | ⟨h, -⟩⟩
      · have hresponder := (Address.isResponder_iff a).mpr hkind
        exact ⟨(a, id), (Slots.mem_responders_iff ..).mpr ⟨hresponder, hget⟩, rfl⟩
      · cases h
  | responder =>
    rw [Option.mem_toList]
    constructor
    · intro hget
      exact ⟨.initiator, hget, .inr ⟨rfl, rfl⟩⟩
    · rintro ⟨a, hget, ⟨h, -⟩ | ⟨-, rfl⟩⟩
      · cases h
      · exact hget

theorem accounts_notify (h : r.IsSeated id) (m : Message) (seats : Slots ClientId) :
    Accounts r [(id, .told m seats)] (r.notify id m) := by
  obtain ⟨c, hc, hauth⟩ := h.client
  have htold : Accounts r (r.note id fun _ => [.told m seats])
      (r.modifyClient id fun c => { c with inbox := c.inbox ++ [.notice m] }) :=
    accounts_modifyClient fun d hd => by
      cases hc.symm.trans hd
      exact .single (.tell hauth)
  rw [note_eq hc] at htold
  have hdispatch : Accounts (r.modifyClient id fun c => { c with inbox := c.inbox ++ [.notice m] }) []
      (r.notify id m) := .of_clients rfl rfl
  exact htold.trans hdispatch

theorem accounts_notifyAll {ids : List ClientId} (h : ∀ id ∈ ids, r.IsSeated id) (m : Message)
    (seats : Slots ClientId) :
    Accounts r (ids.map fun d => (d, .told m seats)) (r.notifyAll ids m) := by
  induction ids generalizing r with
  | nil => exact .refl r
  | cons id ids ih =>
    have htold := accounts_notify (h id (.head ids)) m seats
    refine htold.trans (ih fun d hd => ?_)
    -- A notice changes nobody's standing.
    rw [IsSeated, census_notify]
    exact h d (.tail id hd)

theorem accounts_announce (hr : r.census.Coherent) (path : PathId) (role : Role) (m : Message)
    (seats : Slots ClientId) :
    Accounts r (r.recordAnnouncement path role m seats) (r.announce path role m) := by
  rw [announce_eq]
  refine accounts_notifyAll (fun d hd => ?_) m seats
  obtain ⟨a, hget, -⟩ := mem_audience.mp hd
  exact isSeated_of_get hr hget

theorem accounts_displace {displaced : Option ClientId}
    (h : ∀ other ∈ displaced, ∃ c, r.client? other = some c) :
    Accounts r (recordDisplacement id displaced) (r.displace id displaced) := by
  cases displaced with
  | none => exact .refl r
  | some other =>
    unfold recordDisplacement displace
    dsimp only
    split
    · exact .refl r
    · obtain ⟨c, hc⟩ := h other rfl
      have hclose := accounts_close r other .dropByInitiator
      rw [note_eq hc] at hclose
      exact hclose

/-! ## The server's answer -/

/-- Without an answer nothing is recorded. -/
theorem recordAnswer_cases (r : Relay) (id : ClientId) (c : Client) (a : Admission)
    (cookie : Cookie) :
    (∃ e, (r.onLivePath id c).seat (r.livePath c).1 id a.role = .error e ∧
      r.recordAnswer id c a cookie = [] ∧
      r.answer id c a cookie = (.error e, r.onLivePath id c)) ∨
    (∃ s r' e, (r.onLivePath id c).seat (r.livePath c).1 id a.role = .ok (s, r') ∧
      { c with path := (r.livePath c).1 }.pack s.address
        (.serverAuth ⟨cookie, r'.otherSide (r.livePath c).1 a.role⟩) = .error e ∧
      r.recordAnswer id c a cookie = [] ∧
      r.answer id c a cookie = (.error e, (r'.vacate (r.livePath c).1 s.address id).2)) ∨
    (∃ s r' frame c', (r.onLivePath id c).seat (r.livePath c).1 id a.role = .ok (s, r') ∧
      { c with path := (r.livePath c).1 }.pack s.address
        (.serverAuth ⟨cookie, r'.otherSide (r.livePath c).1 a.role⟩) = .ok (frame, c') ∧
      r.recordAnswer id c a cookie = r'.recordSeating (r.livePath c).1 id a s
        ⟨cookie, r'.otherSide (r.livePath c).1 a.role⟩ frame ∧
      r.answer id c a cookie = (.ok (), r'.settled (r.livePath c).1 id c' a s frame)) := by
  rcases answer_cases r id c a cookie with ⟨e, hseat, heq⟩ | ⟨s, r', e, hseat, hpack, heq⟩ |
    ⟨s, r', frame, c', hseat, hpack, heq⟩
  · exact .inl ⟨e, hseat, by simp only [recordAnswer, hseat, whenOk], heq⟩
  · exact .inr (.inl ⟨s, r', e, hseat, hpack, by simp only [recordAnswer, hseat, hpack, whenOk], heq⟩)
  · exact .inr (.inr ⟨s, r', frame, c', hseat, hpack,
      by simp only [recordAnswer, hseat, hpack, whenOk], heq⟩)

theorem recordServerAuth_cases (r : Relay) (id : ClientId) :
    (∃ outcome, r.recordServerAuth id = [] ∧ r.sendServerAuth id = (outcome, r) ∧
      (r.client? id = none → outcome = .ok ())) ∨
    (∃ c a e, r.client? id = some c ∧ c.gone = false ∧ c.phase = .admitted a ∧
      c.expected = some e ∧ r.recordServerAuth id = r.recordAnswer id c a e.cookie ∧
      r.sendServerAuth id = r.answer id c a e.cookie) := by
  cases hc : r.client? id with
  | none =>
    exact .inl ⟨.ok (), by simp only [recordServerAuth, hc], by simp only [sendServerAuth, hc],
      fun _ => rfl⟩
  | some c =>
    by_cases hdue : c.gone = false ∧ ∃ a e, c.phase = .admitted a ∧ c.expected = some e
    · obtain ⟨hgone, a, e, hphase, he⟩ := hdue
      exact .inr ⟨c, a, e, rfl, hgone, hphase, he, by simp [recordServerAuth, hc, hgone, hphase, he],
        by simp [sendServerAuth, hc, hgone, hphase, he]⟩
    · rcases sendServerAuth_cases r id with ⟨outcome, heq⟩ | ⟨d, a, e, hd, hgone, hphase, he, -⟩
      · refine .inl ⟨outcome, ?_, heq, nofun⟩
        simp only [recordServerAuth, hc]
        split
        · rfl
        · next hgone =>
          split
          · next a e hphase he => exact absurd ⟨by simpa using hgone, a, e, hphase, he⟩ hdue
          · rfl
      · cases hc.symm.trans hd
        exact absurd ⟨hgone, a, e, hphase, he⟩ hdue

theorem accounts_settled {path : PathId} {a : Admission} {s : Seat} {auth : ServerAuth}
    {frame : Bytes} (hc : r.client? id = some c) (hphase : c.phase = .admitted a)
    (hpack : c.pack s.address (.serverAuth auth) = .ok (frame, c'))
    (hsettled : (r.settled path id c' a s frame).census.Coherent)
    (hdisplaced : ∀ other ∈ s.displaced, ∃ d, r.client? other = some d) :
    Accounts r (r.recordSeating path id a s auth frame) (r.settled path id c' a s frame) := by
  have hseated : Accounts r ((.answered auth (r.slots path) frame :: a.recordPings).map (id, ·))
      (r.setClient id (seated c' a s.address frame)) :=
    accounts_setClient hc (.single (.answer hphase hpack))
  -- Being seated is the last that changes anybody's standing.
  have hcoherent : (r.setClient id (seated c' a s.address frame)).census.Coherent := by
    rw [census_settled] at hsettled
    rw [census_setClient, Client.standing_seated]
    exact hsettled
  have htold := hseated.trans
    (accounts_announce hcoherent path a.role (joined a.role s.address) (r.slots path))
  have hcounted := htold.trans
    (accounts_count _ fun m => { m with authenticated := m.authenticated + 1 })
  rw [List.append_nil] at hcounted
  refine hcounted.trans (accounts_displace fun other hother => ?_)
  obtain ⟨d, hd⟩ := hdisplaced other hother
  obtain ⟨d', hd', -⟩ := hcounted.client other d hd
  exact ⟨d', hd'⟩

theorem accounts_onLivePath (hc : r.client? id = some c) : Accounts r [] (r.onLivePath id c) := by
  have hservice : (r.livePath c).2.service = r.service := by
    rcases livePath_cases r c with ⟨heq, -⟩ | ⟨p, -, -, heq⟩
    · rw [heq]
    · rw [heq]
      rfl
  have hlive : Accounts r [] (r.livePath c).2 := .of_clients hservice (clients_livePath r c)
  have hc' : (r.livePath c).2.client? id = some c := by
    rw [client?, clients_livePath]
    exact hc
  exact hlive.trans (accounts_setClient hc' (.single (.move _)))

theorem accounts_answer {a : Admission} (hr : r.census.Coherent) (hc : r.client? id = some c)
    (hgone : c.gone = false) (hphase : c.phase = .admitted a) (cookie : Cookie) :
    Accounts r (r.recordAnswer id c a cookie) (r.answer id c a cookie).2 := by
  have hlive := accounts_onLivePath hc
  have hcoherent := (moves_answer hc hgone hphase cookie).coherent hr
  rcases recordAnswer_cases r id c a cookie with ⟨e, -, hrecord, heq⟩ |
    ⟨s, r', e, hseat, -, hrecord, heq⟩ | ⟨s, r', frame, c', hseat, hpack, hrecord, heq⟩
  · rw [hrecord, heq]
    exact hlive
  · -- The seat is given up again, of which nobody hears.
    obtain ⟨slots, rfl, -⟩ := seat_eq_ok hseat
    rw [hrecord, heq]
    exact hlive.trans (.of_clients rfl rfl)
  · obtain ⟨slots, rfl, -, hdisplaced, -⟩ := seat_eq_ok hseat
    rw [heq] at hcoherent
    rw [hrecord, heq]
    have hslots : Accounts (r.onLivePath id c) []
        ((r.onLivePath id c).setSlots (r.livePath c).1 slots) := .of_clients rfl rfl
    refine (hlive.trans hslots).trans (accounts_settled ?_ ?_ hpack hcoherent ?_)
    · exact client?_onLivePath hc
    · exact hphase
    · -- Whoever is displaced had an address before.
      intro other hother
      have honPath := (moves_onLivePath hc hgone hphase).1.coherent hr
      rw [hdisplaced] at hother
      obtain ⟨d, hd, -⟩ := (isSeated_of_get honPath hother).client
      exact ⟨d, hd⟩

theorem accounts_sendServerAuth (hr : r.census.Coherent) (id : ClientId) :
    Accounts r (r.recordServerAuth id) (r.sendServerAuth id).2 := by
  rcases recordServerAuth_cases r id with ⟨outcome, hrecord, heq, -⟩ |
    ⟨c, a, e, hc, hgone, hphase, -, hrecord, heq⟩
  · rw [hrecord, heq]
    exact .refl r
  · rw [hrecord, heq]
    exact accounts_answer hr hc hgone hphase e.cookie

/-! ## Frames and departures -/

theorem accounts_hear (r : Relay) (id : ClientId) (bytes : Bytes) :
    Accounts r (r.recordAcceptance id bytes) (r.hear id bytes) := by
  rcases hear_cases r id bytes with ⟨heq, hnone⟩ | ⟨c, f, next, hc, hf, hnext, heq⟩
  · have hnil : r.recordAcceptance id bytes = [] := by
      unfold recordAcceptance note
      split
      · next c hc => simp [hnone c hc]
      · rfl
    rw [hnil, heq]
    exact .refl r
  · have hone : r.recordAcceptance id bytes = [(id, .accepted f bytes)] := by
      simp [recordAcceptance, note_eq hc, hf]
    rw [hone, heq]
    exact accounts_setClient hc (.single (.accept hf hnext))

theorem accounts_refuse (hauth : ∀ c, r.client? id = some c → c.isAuthenticated = true)
    (h : Header) : Accounts r (r.recordRefusal id h) (r.refuse id h).2 := by
  unfold recordRefusal
  rcases refuse_cases r id h with ⟨f, hc, heq⟩ | ⟨c, e, hc, hpack, heq⟩ |
    ⟨c, reply, c', f, hc, hpack, heq⟩
  · rw [note_none hc, heq]
    exact accounts_count r f
  · rw [note_eq hc, hpack, heq]
    exact .refl r
  · rw [note_eq hc, hpack, heq]
    have hrefused : Accounts r [(id, .refused h.frameId reply)]
        (r.setClient id (c'.push (.binary reply))) :=
      accounts_setClient hc (.single (.refuse (hauth c hc) hpack))
    exact hrefused.trans (accounts_count _ f)

theorem accounts_forward (h : r.IsSeated id) (sender : ClientId) (frame : Bytes) :
    Accounts r [(id, .relayed sender frame)] (r.forward id frame).2 := by
  obtain ⟨c, hc, hauth⟩ := h.client
  unfold forward
  rw [hc]
  dsimp only
  split
  · next hempty =>
    exact accounts_setClient hc (.single (.pass hauth (List.isEmpty_iff.mp hempty)))
  · next hempty =>
    exact accounts_setClient hc (.single (.queue hauth (by simpa using hempty)))

theorem accounts_handleRaw (hr : r.census.Coherent) (id : ClientId) (c : Client) (h : Header)
    (frame : Bytes) : Accounts r (r.recordRaw id c h frame) (r.handleRaw id c h frame).2 := by
  unfold recordRaw handleRaw
  split
  · next hslot =>
    have hpassed : Accounts r
        (((r.slots c.path).get h.destination).toList.map fun peer => (peer, .relayed id frame))
        (r.passOn c.path h frame).2 := by
      unfold passOn
      cases hpeer : (r.slots c.path).get h.destination with
      | none => exact .refl r
      | some peer => exact accounts_forward (isSeated_of_get hr hpeer) id frame
    have hsender : ∀ d, (r.passOn c.path h frame).2.client? id = some d →
        d.isAuthenticated = true := by
      intro d hd
      obtain ⟨c', hc', hauth⟩ := (isSeated_of_get hr hslot)
      rw [← census_passOn r c.path h frame, census_client? hd] at hc'
      cases hc'
      exact hauth
    cases hpass : r.passOn c.path h frame with
    | mk passed s =>
      rw [hpass] at hpassed hsender
      cases passed with
      | true =>
        dsimp only
        exact hpassed.trans (accounts_count s _)
      | false => exact hpassed.trans (accounts_refuse hsender h)
  · exact .refl r

theorem accounts_handleDropResponder (hr : r.census.Coherent) (hc : r.client? id = some c)
    (responder : Address) (reason : Option CloseCode) :
    Accounts r (r.recordDrop id c responder reason)
      (r.handleDropResponder c responder reason).2 := by
  have hslots : Accounts r [] (r.setSlots c.path ((r.slots c.path).del responder).2) :=
    .of_clients rfl rfl
  rcases handleDropResponder_cases r c responder reason with ⟨hnot, heq⟩ | ⟨hauth, hrole, hget, heq⟩ |
    ⟨other, f, hauth, hrole, hget, heq⟩
  · have hnil : r.recordDrop id c responder reason = [] := if_neg (by simpa using hnot)
    rw [hnil, heq]
    exact .refl r
  · have hdropped : r.recordDrop id c responder reason = [(id, .dropped responder)] := by
      simp [recordDrop, hauth, hrole, hget]
    have hstep : Accounts r [(id, .dropped responder)] (r.setClient id c) :=
      accounts_setClient hc (.single (.drop hauth hrole))
    rw [setClient_eq_self hc] at hstep
    rw [hdropped, heq]
    exact hstep.trans hslots
  · have hdropped : r.recordDrop id c responder reason =
        [(id, .dropped responder), (other, .ordered (.close (reason.getD .dropByInitiator)))] := by
      simp [recordDrop, hauth, hrole, hget]
    have hstep : Accounts r [(id, .dropped responder)] (r.setClient id c) :=
      accounts_setClient hc (.single (.drop hauth hrole))
    rw [setClient_eq_self hc] at hstep
    -- Whoever has the address is there and told to close.
    obtain ⟨d, hd, -⟩ := (isSeated_of_get hr hget).client
    replace hd : (r.setSlots c.path ((r.slots c.path).del responder).2).client? other = some d := hd
    have hclose := accounts_close (r.setSlots c.path ((r.slots c.path).del responder).2) other
      (reason.getD .dropByInitiator)
    rw [note_eq hd] at hclose
    rw [hdropped, heq]
    exact ((hstep.trans hslots).trans hclose).trans (accounts_count _ f)

theorem accounts_handleClientAuth (r : Relay) (id : ClientId) (auth : ClientAuth) :
    Accounts r (r.note id fun c => whenOk (c.authorize r.service auth) fun _ => [.admitted auth])
      (r.handleClientAuth id auth).2 := by
  have hupdate : Accounts r
      (r.note id fun c => whenOk (c.authorize r.service auth) fun _ => [.admitted auth])
      (r.update id fun c => c.authorize r.service auth).2 := by
    refine accounts_update (fun c c' _ hok => ?_) (fun c e _ herror => by rw [herror]; rfl)
    rw [hok]
    exact .single (.authorize hok)
  obtain ⟨outcome, s, hs, heq⟩ := handleClientAuth_cases r id auth
  rw [hs] at hupdate
  rcases heq with heq | heq
  · rw [heq]
    exact hupdate
  · have hdispatched := hupdate.trans (.of_clients rfl rfl : Accounts s [] (s.dispatch (.answer id)))
    rw [List.append_nil] at hdispatched
    rw [heq]
    exact hdispatched

/-- What is recorded for one client alone. -/
theorem map_whenOk {α : Type} (x : Except ProtocolError α) (f : α → List Event) (id : ClientId) :
    (whenOk x f).map (id, ·) = whenOk x fun a => (f a).map (id, ·) := by
  cases x <;> rfl

theorem accounts_handle (hr : r.census.Coherent) (hc : r.client? id = some c) (m : Message) :
    Accounts r (r.recordHandling id c m) (r.handle id c m).2 := by
  cases m with
  | clientHello key =>
    have hupdate : Accounts r (r.note id fun c => whenOk (c.introduce key) fun _ => [.introduced key])
        (r.update id fun c => c.introduce key).2 := by
      refine accounts_update (fun c c' _ hok => ?_) (fun c e _ herror => by rw [herror]; rfl)
      rw [hok]
      exact .single (.introduce hok)
    rw [note_eq hc, map_whenOk] at hupdate
    exact hupdate
  | clientAuth auth =>
    have hadmitted := accounts_handleClientAuth r id auth
    rw [note_eq hc, map_whenOk] at hadmitted
    exact hadmitted
  | dropResponder responder reason => exact accounts_handleDropResponder hr hc responder reason
  | raw h frame => exact accounts_handleRaw hr id c h frame
  | _ => exact .refl r

theorem accounts_received (hr : r.census.Coherent) (id : ClientId) (bytes : Bytes) :
    Accounts r (r.recordFrame id bytes) (r.received id bytes).2 := by
  -- The frame counts first, and what it has left of the client handles it.
  have hhear := accounts_hear r id bytes
  have hcoherent := coherent_hear hr id bytes
  unfold recordFrame received
  unfold hear update at hhear hcoherent
  cases hc : r.client? id with
  | none =>
    simp only [hc] at hhear
    exact hhear.trans (.refl r)
  | some c =>
    cases hu : c.unpack bytes with
    | error e =>
      simp only [hc, hu, Functor.map, Except.map] at hhear
      simp only [hu, whenOk]
      exact hhear.trans (.refl r)
    | ok result =>
      obtain ⟨m, c'⟩ := result
      simp only [hc, hu, Functor.map, Except.map] at hhear hcoherent
      simp only [hu, whenOk]
      have hc' : (r.setClient id c').client? id = some c' := by
        rw [client?_setClient, if_pos rfl, hc]
        rfl
      exact hhear.trans (accounts_handle hcoherent hc' m)

theorem accounts_departed (hc : r.client? id = some c) : Accounts r [] (r.departed id c) := by
  have hgone : Accounts r [] (r.setClient id { c with gone := true }) :=
    accounts_setClient hc (.single .leave)
  rw [departed_eq]
  exact hgone.trans (.of_clients rfl rfl)

/-- Only who had its address when it left is reported. -/
theorem recordDeparture_cases (r : Relay) (id : ClientId) :
    (r.client? id = none ∧ r.recordDeparture id = [] ∧ r.disconnected id = (.ok (), r)) ∨
    (∃ c outcome, r.client? id = some c ∧
      ¬ (c.isAuthenticated = true ∧ (r.slots c.path).get c.id = some id) ∧
      r.recordDeparture id = [] ∧ r.disconnected id = (outcome, r.departed id c)) ∨
    (∃ c role outcome, r.client? id = some c ∧ c.isAuthenticated = true ∧
      (r.slots c.path).get c.id = some id ∧ c.role? = some role ∧
      r.recordDeparture id = (r.departed id c).recordAnnouncement c.path role (.disconnected c.id)
        (r.slots c.path) ∧
      r.disconnected id =
        (outcome, (r.departed id c).announce c.path role (.disconnected c.id))) := by
  rcases disconnected_cases r id with ⟨hc, heq⟩ | ⟨c, outcome, hc, hnot, heq⟩ |
    ⟨c, role, outcome, hc, hauth, hslot, hrole, heq⟩
  · exact .inl ⟨hc, by simp only [recordDeparture, hc], heq⟩
  · exact .inr (.inl ⟨c, outcome, hc, hnot, by simp only [recordDeparture, hc, if_neg hnot], heq⟩)
  · exact .inr (.inr ⟨c, role, outcome, hc, hauth, hslot, hrole,
      by simp only [recordDeparture, hc, if_pos (And.intro hauth hslot), hrole], heq⟩)

theorem accounts_disconnected (hr : r.census.Coherent) (id : ClientId) :
    Accounts r (r.recordDeparture id) (r.disconnected id).2 := by
  rcases recordDeparture_cases r id with ⟨-, hrecord, heq⟩ | ⟨c, outcome, hc, -, hrecord, heq⟩ |
    ⟨c, role, outcome, hc, -, -, -, hrecord, heq⟩
  · rw [hrecord, heq]
    exact .refl r
  · rw [hrecord, heq]
    exact accounts_departed hc
  · have hcoherent := (moves_departed hc).coherent hr
    rw [hrecord, heq]
    exact (accounts_departed hc).trans (accounts_announce hcoherent ..)

/-! ## Jobs and actions -/

/-- **A delivery empties one inbox** and leaves all other clients as they were. -/
theorem client?_runJob_deliver (r : Relay) (id other : ClientId) :
    (r.runJob (.deliver id)).client? other =
      if id = other then (r.client? other).map fun c => c.afterDelivery c.inbox else r.client? other := by
  cases hc : r.client? id with
  | none =>
    have hsame : r.runJob (.deliver id) = r := by simp only [runJob, hc]
    rw [hsame]
    split
    · next heq =>
      rw [← heq, hc]
      rfl
    · rfl
  | some c =>
    cases hd : c.deliverAll c.inbox with
    | mk outcome c' =>
      cases outcome with
      | none =>
        have hset : r.runJob (.deliver id) = r.setClient id c' := by
          simp only [runJob, hc, Client.deliverInbox, hd]
        rw [hset, client?_setClient]
        split
        · next heq =>
          subst heq
          simp only [hc, Option.map_some, Client.afterDelivery, hd]
        · rfl
      | some e =>
        have hfail : r.runJob (.deliver id) = (r.setClient id c').fail id e := by
          simp only [runJob, hc, Client.deliverInbox, hd]
        rw [hfail, client?_fail, client?_setClient]
        split
        · next heq =>
          subst heq
          simp only [hc, Option.map_some, Client.afterDelivery, hd]
        · rfl

theorem accounts_deliver (r : Relay) (id : ClientId) :
    Accounts r (r.recordJob (.deliver id)) (r.runJob (.deliver id)) := by
  have hservice : (r.runJob (.deliver id)).service = r.service := by
    rcases runJob_deliver_cases r id with heq | ⟨c, -, heq | ⟨e, heq⟩⟩
    · rw [heq]
    · rw [heq]
      rfl
    · rw [heq]
      exact (accounts_fail (r.setClient id c.deliverInbox.2) id e).service
  unfold recordJob
  dsimp only
  cases hc : r.client? id with
  | none =>
    have hsame : r.runJob (.deliver id) = r := by simp only [runJob, hc]
    rw [note_none hc, hsame]
    exact .refl r
  | some c =>
    have hdelivery : Steps r.service c (c.recordDelivery c.inbox) (c.afterDelivery c.inbox) :=
      Client.steps_delivery c.inbox c
    rw [note_eq hc]
    refine .of_one hservice hc ?_ (fun other hne => ?_) hdelivery
    · rw [client?_runJob_deliver, if_pos rfl, hc]
      rfl
    · rw [client?_runJob_deliver, if_neg hne]

theorem accounts_runJob (hr : r.census.Coherent) (job : Job) :
    Accounts r (r.recordJob job) (r.runJob job) := by
  cases job with
  | deliver id => exact accounts_deliver r id
  | answer id =>
    have hanswer := accounts_sendServerAuth hr id
    unfold recordJob runJob
    dsimp only
    cases hs : r.sendServerAuth id with
    | mk outcome s =>
      rw [hs] at hanswer
      cases outcome with
      | ok _ => exact hanswer.trans (.refl s)
      | error e =>
        -- A failure is a failure to answer somebody.
        obtain ⟨c, hc⟩ : ∃ c, s.client? id = some c := by
          cases hc : r.client? id with
          | none =>
            rw [sendServerAuth, hc] at hs
            cases hs
          | some c =>
            obtain ⟨c', hc', -⟩ := hanswer.client id c hc
            exact ⟨c', hc'⟩
        have hfail := accounts_fail s id e
        rw [note_eq hc] at hfail
        exact hanswer.trans hfail

/-- **What an action records accounts for it.** Unless a connection is accepted, no client comes, and
whatever changes about the clients that there are is recorded. -/
theorem accounts_perform (hr : r.census.Coherent) (a : Action)
    (ha : ∀ key subprotocol draw, a ≠ .accept key subprotocol draw) :
    Accounts r (r.record a) (r.perform a) := by
  cases a with
  | accept key subprotocol draw => exact absurd rfl (ha key subprotocol draw)
  | greet id =>
    refine accounts_update (fun c c' _ hok => ?_) (fun c e _ herror => ?_)
    · obtain ⟨hphase, frame, c₁, hpack, rfl⟩ := Client.greet_eq_ok.mp hok
      rw [if_pos hphase, hpack]
      exact .single (.greet hphase hpack)
    · split
      · next hphase =>
        cases hpack : c.pack .server (.serverHello c.session.publicKey) with
        | error e => rfl
        | ok packed =>
          simp [Client.greet, hphase, hpack, bind, Except.bind, pure, Except.pure] at herror
      · rfl
  | receive id bytes => exact accounts_received hr id bytes
  | unpack id bytes => exact accounts_hear r id bytes
  | pack id destination m =>
    refine accounts_update (fun c c' _ hok => ?_) (fun c e _ herror => ?_)
    · obtain ⟨⟨frame, c₁⟩, hpack, rfl⟩ := map_eq_ok.mp hok
      rw [hpack]
      exact .single (.pack hpack)
    · cases hpack : c.pack destination m with
      | error e => rfl
      | ok packed =>
        rw [hpack] at herror
        cases herror
  | send id m =>
    refine accounts_update (fun c c' _ hok => ?_) (fun c e _ herror => ?_)
    · rw [Client.send_eq] at hok
      obtain ⟨⟨frame, c₁⟩, hsending, rfl⟩ := map_eq_ok.mp hok
      rw [hsending]
      exact .single (.post hsending)
    · rw [Client.send_eq] at herror
      cases hsending : c.sending m with
      | error e => rfl
      | ok packed =>
        rw [hsending] at herror
        cases herror
  | answer id => exact accounts_sendServerAuth hr id
  | disconnect id => exact accounts_disconnected hr id
  | runJob place =>
    unfold record perform
    dsimp only
    cases r.jobs.takeAt place with
    | none => exact .refl r
    | some taken =>
      obtain ⟨job, jobs⟩ := taken
      have hjobs : Accounts r [] { r with jobs := jobs } := .of_clients rfl rfl
      exact hjobs.trans (accounts_runJob (r := { r with jobs := jobs }) hr job)
  | fail id e => exact accounts_fail r id e
  | close id code => exact accounts_close r id code
  | collect id => exact accounts_modifyClient fun _ _ => .single .collect
  | hangUp id => exact accounts_modifyClient fun _ _ => .single .hangUp

/-- A client that is there after an action is a new one, or what was recorded accounts for it. -/
theorem steps_perform (hr : r.census.Coherent) (a : Action)
    (hc' : (r.perform a).client? id = some c') :
    (∃ c, r.client? id = some c ∧ Steps r.service c ((r.record a).of id) c') ∨
    (∃ path key subprotocol draw, r.client? id = none ∧ a = .accept key subprotocol draw ∧
      c' = r.newcomer path key subprotocol draw ∧ (r.record a).of id = [.opened draw]) := by
  by_cases ha : ∃ key subprotocol draw, a = .accept key subprotocol draw
  · obtain ⟨key, subprotocol, draw, rfl⟩ := ha
    have hrecord : r.record (.accept key subprotocol draw) =
        [.opened draw].map (⟨r.clients.size⟩, ·) := rfl
    rw [perform, client?_accept] at hc'
    rw [hrecord]
    split at hc'
    · next heq =>
      cases hc'
      subst heq
      have hnew : r.client? ⟨r.clients.size⟩ = none := by simp [client?]
      exact .inr ⟨_, key, subprotocol, draw, hnew, rfl, rfl, Journal.of_map_self ..⟩
    · next hne =>
      rw [Journal.of_map_ne hne]
      exact .inl ⟨c', hc', .refl⟩
  · have haccounts := accounts_perform hr a fun key subprotocol draw heq =>
      ha ⟨key, subprotocol, draw, heq⟩
    cases hc : r.client? id with
    | none => cases (haccounts.none id hc).1.symm.trans hc'
    | some c =>
      obtain ⟨d, hd, hsteps⟩ := haccounts.client id c hc
      cases hd.symm.trans hc'
      exact .inl ⟨c, rfl, hsteps⟩

/-- Who is not there after an action was not there before, and nothing is recorded for him. -/
theorem record_of_none (hr : r.census.Coherent) (a : Action)
    (hc : (r.perform a).client? id = none) : r.client? id = none ∧ (r.record a).of id = [] := by
  by_cases ha : ∃ key subprotocol draw, a = .accept key subprotocol draw
  · obtain ⟨key, subprotocol, draw, rfl⟩ := ha
    rw [perform, client?_accept] at hc
    split at hc
    · cases hc
    · next hne => exact ⟨hc, Journal.of_map_ne hne [.opened draw]⟩
  · have haccounts := accounts_perform hr a fun key subprotocol draw heq =>
      ha ⟨key, subprotocol, draw, heq⟩
    cases hold : r.client? id with
    | none => exact ⟨rfl, (haccounts.none id hold).2⟩
    | some c =>
      obtain ⟨d, hd, -⟩ := haccounts.client id c hold
      cases hd.symm.trans hc

/-- Who was there before an action is there after it. -/
theorem client?_perform (hr : r.census.Coherent) (a : Action) (hc : r.client? id = some c) :
    ∃ c', (r.perform a).client? id = some c' ∧ Steps r.service c ((r.record a).of id) c' := by
  cases hc' : (r.perform a).client? id with
  | none => cases hc.symm.trans (record_of_none hr a hc').1
  | some c' =>
    rcases steps_perform hr a hc' with ⟨d, hd, hsteps⟩ | ⟨-, -, -, -, hnone, -⟩
    · cases hc.symm.trans hd
      exact ⟨c', rfl, hsteps⟩
    · cases hc.symm.trans hnone

/-- Who is there at some time stays there, and keeps what each of its steps keeps. -/
theorem client?_run {P : Client → Prop} (hr : r.census.Coherent)
    (hstep : ∀ service c es c', Client.Step service c es c' → P c → P c')
    (hc : r.client? id = some c) (h : P c) (more : List Action) :
    ∃ c', (r.run more).client? id = some c' ∧ P c' := by
  induction more generalizing r c with
  | nil => exact ⟨c, hc, h⟩
  | cons act rest ih =>
    obtain ⟨d, hd, hsteps⟩ := client?_perform hr act hc
    exact ih (coherent_perform hr act) hd
      (hsteps.keep (P := fun c _ => P c) (fun c es c' _ => hstep r.service c es c') [] h)

/-! ## Where events come from -/

theorem from_of_recordDelivery {act : Action} {d : ClientId} {e : Event} {deliveries : List Delivery}
    (h : e ∈ c.recordDelivery deliveries) : e.From act d := by
  induction deliveries generalizing c with
  | nil => cases h
  | cons delivery rest ih =>
    cases delivery with
    | relayed =>
      rcases List.mem_cons.mp h with rfl | h
      · exact trivial
      · exact ih h
    | notice m =>
      rw [Client.recordDelivery] at h
      split at h
      · rcases List.mem_cons.mp h with rfl | h
        · exact trivial
        · exact ih h
      · cases List.mem_singleton.mp h
        exact trivial

theorem from_of_recordServerAuth {act : Action} {d : ClientId} {e : Event}
    (h : (d, e) ∈ r.recordServerAuth id) : e.From act d := by
  rcases recordServerAuth_cases r id with ⟨-, hrecord, -⟩ | ⟨c, a, due, -, -, -, -, hrecord, -⟩
  · rw [hrecord] at h
    cases h
  rw [hrecord] at h
  rcases recordAnswer_cases r id c a due.cookie with ⟨-, -, hnil, -⟩ | ⟨-, -, -, -, -, hnil, -⟩ |
    ⟨s, r', frame, c', -, -, hseating, -⟩
  · rw [hnil] at h
    cases h
  · rw [hnil] at h
    cases h
  · rw [hseating] at h
    unfold recordSeating recordAnnouncement recordDisplacement Admission.recordPings at h
    simp only [List.mem_append, List.mem_map, List.mem_cons] at h
    rcases h with (⟨e', rfl | he, heq⟩ | ⟨other, -, heq⟩) | h
    · cases heq
      exact trivial
    · split at he
      · cases he
      · cases List.mem_singleton.mp he
        cases heq
        exact trivial
    · cases heq
      exact trivial
    · split at h
      · split at h
        · cases h
        · cases List.mem_singleton.mp h
          exact trivial
      · cases h

theorem from_of_recordHandling {act : Action} {d : ClientId} {e : Event} {m : Message}
    (h : (d, e) ∈ r.recordHandling id c m) : e.From act d := by
  cases m with
  | clientHello | clientAuth =>
    obtain ⟨-, -, h⟩ := mem_whenOk.mp h
    cases List.mem_singleton.mp h
    exact trivial
  | dropResponder responder reason =>
    replace h : (d, e) ∈ r.recordDrop id c responder reason := h
    unfold recordDrop at h
    split at h
    · rcases List.mem_cons.mp h with heq | h
      · cases heq
        exact trivial
      · obtain ⟨other, -, heq⟩ := List.mem_map.mp h
        cases heq
        exact trivial
    · cases h
  | raw header bytes =>
    replace h : (d, e) ∈ r.recordRaw id c header bytes := h
    unfold recordRaw at h
    split at h
    · rcases List.mem_append.mp h with h | h
      · obtain ⟨other, -, heq⟩ := List.mem_map.mp h
        cases heq
        exact trivial
      · split at h
        · cases h
        · obtain ⟨-, c, -, h⟩ := mem_note.mp h
          obtain ⟨⟨reply, c'⟩, -, h⟩ := mem_whenOk.mp h
          cases List.mem_singleton.mp h
          exact trivial
    · cases h
  | _ => cases h

theorem from_of_recordAcceptance {act : Action} {bytes : Bytes} {d : ClientId} {e : Event}
    (h : (d, e) ∈ r.recordAcceptance id bytes) : e.From act d := by
  obtain ⟨-, c, -, h⟩ := mem_note.mp h
  obtain ⟨f, -, rfl⟩ := List.mem_map.mp h
  exact trivial

theorem from_of_recordFrame {act : Action} {bytes : Bytes} {d : ClientId} {e : Event}
    (h : (d, e) ∈ r.recordFrame id bytes) : e.From act d := by
  rcases List.mem_append.mp h with h | h
  · exact from_of_recordAcceptance h
  · split at h
    · cases h
    · obtain ⟨⟨m, c'⟩, -, h⟩ := mem_whenOk.mp h
      exact from_of_recordHandling h

theorem from_of_record {act : Action} {d : ClientId} {e : Event} (h : (d, e) ∈ r.record act) :
    e.From act d := by
  cases act with
  | accept key subprotocol draw =>
    cases List.mem_singleton.mp h
    exact ⟨key, subprotocol, rfl⟩
  | greet =>
    obtain ⟨-, c, -, h⟩ := mem_note.mp h
    split at h
    · obtain ⟨⟨packed, c'⟩, -, h⟩ := mem_whenOk.mp h
      cases List.mem_singleton.mp h
      exact trivial
    · cases h
  | receive => exact from_of_recordFrame h
  | unpack => exact from_of_recordAcceptance h
  | pack | send =>
    obtain ⟨rfl, c, -, h⟩ := mem_note.mp h
    obtain ⟨⟨packed, c'⟩, -, h⟩ := mem_whenOk.mp h
    cases List.mem_singleton.mp h
    rfl
  | answer => exact from_of_recordServerAuth h
  | disconnect id =>
    replace h : (d, e) ∈ r.recordDeparture id := h
    rcases recordDeparture_cases r id with ⟨-, hrecord, -⟩ | ⟨-, -, -, -, hrecord, -⟩ |
      ⟨c, role, -, -, -, -, -, hrecord, -⟩
    · rw [hrecord] at h
      cases h
    · rw [hrecord] at h
      cases h
    · rw [hrecord] at h
      obtain ⟨other, -, heq⟩ := List.mem_map.mp h
      cases heq
      exact trivial
  | runJob place =>
    unfold record at h
    dsimp only at h
    split at h
    · next job jobs _ =>
      cases job with
      | answer id =>
        rcases List.mem_append.mp h with h | h
        · exact from_of_recordServerAuth h
        · split at h
          · cases h
          · cases List.mem_singleton.mp h
            exact trivial
      | deliver id =>
        obtain ⟨-, c, -, h⟩ := mem_note.mp h
        exact from_of_recordDelivery h
    · cases h
  | fail | close | collect =>
    obtain ⟨-, c, -, h⟩ := mem_note.mp h
    cases List.mem_singleton.mp h
    exact trivial
  | hangUp =>
    obtain ⟨rfl, c, -, h⟩ := mem_note.mp h
    cases List.mem_singleton.mp h
    rfl

/-- An event that has to be asked for was asked for. -/
theorem from_of_history {actions : List Action} {d : ClientId} {e : Event}
    (h : e ∈ r.history actions d) : ∃ act ∈ actions, e.From act d := by
  induction actions generalizing r with
  | nil => cases h
  | cons act rest ih =>
    unfold history at h
    rw [Journal.mem_of, journal, List.mem_append] at h
    rcases h with h | h
    · exact ⟨act, .head rest, from_of_record h⟩
    · obtain ⟨act', hact', hfrom⟩ := ih (r := r.perform act) (Journal.mem_of.mpr h)
      exact ⟨act', .tail act hact', hfrom⟩

/-! ## Runs -/

theorem service_perform (hr : r.census.Coherent) (a : Action) :
    (r.perform a).service = r.service := by
  by_cases ha : ∃ key subprotocol draw, a = .accept key subprotocol draw
  · obtain ⟨key, subprotocol, draw, rfl⟩ := ha
    rfl
  · exact (accounts_perform hr a fun key subprotocol draw heq =>
      ha ⟨key, subprotocol, draw, heq⟩).service

theorem service_run (service : Service) (actions : List Action) :
    ((new service).run actions).service = service :=
  (run_induction (P := fun r => r.census.Coherent ∧ r.service = service) ⟨coherent_new service, rfl⟩
    (fun _ a h => ⟨coherent_perform h.1 a, (service_perform h.1 a).trans h.2⟩) actions).2

/-- A relay and the journal of what happened so far. All clients and their histories are so that each
step of a client keeps it. -/
structure Told (P : Client → List Event → Prop) (service : Service) (r : Relay) (j : Journal) :
    Prop where
  coherent : r.census.Coherent
  service_eq : r.service = service
  client : ∀ id c, r.client? id = some c → P c (j.of id)
  none : ∀ id, r.client? id = none → j.of id = []

variable {P : Client → List Event → Prop} {service : Service}

theorem Told.perform (h : Told P service r j)
    (opened : ∀ (r : Relay) path key subprotocol draw,
      P (r.newcomer path key subprotocol draw) [.opened draw])
    (step : ∀ c es c' history, Step service c es c' → P c history → P c' (history ++ es))
    (a : Action) : Told P service (r.perform a) (j ++ r.record a) := by
  refine ⟨coherent_perform h.coherent a, (service_perform h.coherent a).trans h.service_eq,
    fun id c' hc' => ?_, fun id hc => ?_⟩
  · rw [Journal.of_append]
    rcases steps_perform h.coherent a hc' with ⟨c, hc, hsteps⟩ |
      ⟨path, key, subprotocol, draw, hnew, -, rfl, hrecord⟩
    · rw [h.service_eq] at hsteps
      exact hsteps.keep step (j.of id) (h.client id c hc)
    · rw [h.none id hnew, hrecord]
      exact opened r path key subprotocol draw
  · obtain ⟨hold, hrecord⟩ := record_of_none h.coherent a hc
    rw [Journal.of_append, h.none id hold, hrecord]
    rfl

/-- **Invariants of clients and their histories.** What is true of a new client, and is kept by each step
of a client, holds of every client and its history after every run. -/
theorem history_induction
    (opened : ∀ (r : Relay) path key subprotocol draw,
      P (r.newcomer path key subprotocol draw) [.opened draw])
    (step : ∀ c es c' history, Step service c es c' → P c history → P c' (history ++ es))
    (actions : List Action) (id : ClientId) :
    (∀ c, ((new service).run actions).client? id = some c →
      P c ((new service).history actions id)) ∧
    (((new service).run actions).client? id = none → (new service).history actions id = []) := by
  have hnew : Told P service (new service) [] :=
    ⟨coherent_new service, rfl, fun id c hc => by simp [new, client?] at hc, fun _ _ => rfl⟩
  have htold := journal_induction (P := Told P service)
    (fun r j a h => Told.perform h opened step a) hnew actions
  exact ⟨htold.client id, htold.none id⟩

end Relay

end Rendezvous
