import Rendezvous.Proofs.Relay.Delivery

/-!
# No inbox is stranded

Things that wait and jobs that deliver them do not come in pairs. One delivery takes all that waits, so the
next one may find nothing; and a frame that has to wait has no delivery of its own, but relies on that of the
notice in front of it. Still, nothing waits for long: whenever something waits for a client, a delivery for
it was dispatched that has not run yet (`awaited_run`). An inbox only begins to fill with a notice, which
dispatches a delivery, and only a delivery for this client can take the job away, which empties the inbox.

A delivery changes one client and dispatches nothing. So it does not matter in which order the deliveries
that wait are run: the first one for a client delivers everything, and the others nothing.

* **`Awaited`** — for whom something waits, a delivery waits.
* **`DeliversAll`** — the deliveries that wait are run, in some order.
* **`client?_deliversAll`** — what that makes of each client.
* **`delivered_run`** — what follows for runs, with the order of what is delivered.
-/

namespace Rendezvous

/-- Letters begin to wait with a notice. -/
theorem told_of_waiting {history es : List Event} (h : (ledger history).waiting = [])
    (hwaits : (ledger (history ++ es)).waiting ≠ []) : ∃ m seats, .told m seats ∈ es := by
  induction es using List.reverseRecOn with
  | nil =>
    rw [List.append_nil] at hwaits
    exact absurd h hwaits
  | append_singleton es e ih =>
    by_cases hbefore : (ledger (history ++ es)).waiting = []
    · rw [← List.append_assoc, ledger_concat] at hwaits
      have hpop : ∀ frame, ((ledger (history ++ es)).pop frame).waiting = [] := fun frame => by
        simp only [Ledger.pop, hbefore]
      cases e with
      | told m seats => exact ⟨m, seats, List.mem_append_right _ (.head _)⟩
      | relayed sender frame =>
        rw [Ledger.note_relayed_of_nil hbefore] at hwaits
        exact absurd hbefore hwaits
      | served _ frame | released frame => exact absurd (hpop frame) hwaits
      | cut => exact absurd rfl hwaits
      | _ => exact absurd hbefore hwaits
    · obtain ⟨m, seats, hmem⟩ := ih hbefore
      exact ⟨m, seats, List.mem_append_left _ hmem⟩

namespace Relay

variable {r : Relay} {id d : ClientId} {c : Client} {act : Action} {m : Message}
  {seats : Slots ClientId} {place : Nat} {jobs : JobQueue Job}

/-! ## Deliveries are dispatched with notices -/

theorem deliver_of_announced {path : PathId} {role : Role} {m' : Message} {seats' : Slots ClientId}
    (h : (d, .told m' seats') ∈ r.recordAnnouncement path role m seats) :
    .deliver d ∈ (r.announce path role m).jobs.pending := by
  obtain ⟨other, hother, heq⟩ := List.mem_map.mp h
  cases heq
  rw [announce_eq, pending_notifyAll]
  exact List.mem_append_right _ (List.mem_map_of_mem hother)

theorem deliver_of_recordServerAuth (h : (d, .told m seats) ∈ r.recordServerAuth id) :
    .deliver d ∈ (r.sendServerAuth id).2.jobs.pending := by
  rcases recordServerAuth_cases r id with ⟨-, hrecord, -⟩ | ⟨c, a, e, -, -, -, -, hrecord, heq⟩
  · rw [hrecord] at h
    cases h
  rw [hrecord] at h
  rcases recordAnswer_cases r id c a e.cookie with ⟨-, -, hnil, -⟩ | ⟨-, -, -, -, -, hnil, -⟩ |
    ⟨s, r', frame, c', -, -, hseating, hsettled⟩
  · rw [hnil] at h
    cases h
  · rw [hnil] at h
    cases h
  rw [hseating] at h
  rw [heq, hsettled]
  rcases List.mem_append.mp h with h | h
  · rcases List.mem_append.mp h with h | h
    · -- The answer and the pings are for the client that is seated.
      obtain ⟨event, hevent, heq⟩ := List.mem_map.mp h
      cases heq
      rcases List.mem_cons.mp hevent with heq | hpings
      · cases heq
      · unfold Admission.recordPings at hpings
        split at hpings
        · cases hpings
        · cases List.mem_singleton.mp hpings
    · have hannounced : .deliver d ∈ ((r'.setClient id (seated c' a s.address frame)).announce
          (r.livePath c).1 a.role (joined a.role s.address)).jobs.pending := deliver_of_announced h
      unfold settled
      rw [jobs_displace]
      exact hannounced
  · unfold recordDisplacement at h
    split at h
    · split at h
      · cases h
      · cases List.mem_singleton.mp h
    · cases h

theorem deliver_of_recordDeparture (h : (d, .told m seats) ∈ r.recordDeparture id) :
    .deliver d ∈ (r.disconnected id).2.jobs.pending := by
  rcases recordDeparture_cases r id with ⟨-, hrecord, -⟩ | ⟨-, -, -, -, hrecord, -⟩ |
    ⟨c, role, outcome, -, -, -, -, hrecord, heq⟩
  · rw [hrecord] at h
    cases h
  · rw [hrecord] at h
    cases h
  · rw [hrecord] at h
    rw [heq]
    exact deliver_of_announced h

/-- Whoever is told something is to have it delivered. -/
theorem deliver_of_told (hr : r.census.Coherent) (h : (d, .told m seats) ∈ r.record act) :
    .deliver d ∈ (r.perform act).jobs.pending := by
  have hnews : (d, .told m seats) ∈ (r.record act).news := List.mem_filter.mpr ⟨h, rfl⟩
  -- Somebody is told something if a client is answered, or departs.
  have hact : (∃ id, act.Answers id) ∨ ∃ id, act = .disconnect id := by
    have hturn := turn_perform hr act
    generalize (r.record act).news = news at hnews hturn
    cases hturn with
    | quiet | release => cases hnews
    | introduce | authorize | drop | relay => cases List.mem_singleton.mp hnews
    | seat hact => exact .inl ⟨_, hact⟩
    | leave hact => exact .inr ⟨_, hact⟩
  rcases hact with ⟨id, rfl | ⟨place, rfl⟩⟩ | ⟨id, rfl⟩
  · exact deliver_of_recordServerAuth h
  · unfold record at h
    unfold perform
    dsimp only at h ⊢
    cases htaken : r.jobs.takeAt place with
    | none =>
      rw [htaken] at h
      cases h
    | some taken =>
      obtain ⟨job, jobs⟩ := taken
      rw [htaken] at h
      dsimp only at h ⊢
      cases job with
      | deliver id =>
        have hdelivered : (d, .told m seats) ∈
            ({ r with jobs := jobs }.note id fun c => c.recordDelivery c.inbox).news :=
          List.mem_filter.mpr ⟨h, rfl⟩
        rw [news_note fun c => Client.news_recordDelivery c.inbox c] at hdelivered
        cases hdelivered
      | answer id =>
        have hanswered : (d, .told m seats) ∈ { r with jobs := jobs }.recordServerAuth id := by
          rcases List.mem_append.mp h with h | h
          · exact h
          · split at h
            · cases h
            · cases List.mem_singleton.mp h
        obtain ⟨outcome, s, hs, heq⟩ := runJob_answer_cases { r with jobs := jobs } id
        have hdeliver := deliver_of_recordServerAuth hanswered
        rw [hs] at hdeliver
        rcases heq with heq | ⟨e, heq⟩
        · rw [heq]
          exact hdeliver
        · rw [heq, jobs_fail]
          exact hdeliver
  · exact deliver_of_recordDeparture h

/-! ## Whatever waits is to be delivered -/

theorem perform_of_takeAt {job : Job} (h : r.jobs.takeAt place = some (job, jobs)) :
    r.perform (.runJob place) = { r with jobs := jobs }.runJob job := by
  rw [perform, h]

theorem client?_perform_deliver (h : r.jobs.takeAt place = some (.deliver d, jobs)) (id : ClientId) :
    (r.perform (.runJob place)).client? id =
      if d = id then (r.client? id).map fun c => c.afterDelivery c.inbox else r.client? id := by
  rw [perform_of_takeAt h]
  exact client?_runJob_deliver ..

theorem record_deliver (h : r.jobs.takeAt place = some (.deliver d, jobs)) :
    r.record (.runJob place) = r.note d fun c => c.recordDelivery c.inbox := by
  rw [record, h]
  rfl

/-- For whom something waits, a delivery waits. -/
def Awaited (r : Relay) : Prop :=
  ∀ id c, r.client? id = some c → c.inbox ≠ [] → .deliver id ∈ r.jobs.pending

/-- **No inbox is stranded**, in any run. -/
theorem awaited_run (service : Service) (actions : List Action) : ((new service).run actions).Awaited := by
  induction actions using List.reverseRecOn with
  | nil => exact fun id c hc => by simp [new, client?] at hc
  | append_singleton actions act ih =>
    intro id c' hc' hinbox
    have hhistory : (new service).history (actions ++ [act]) id =
        (new service).history actions id ++ (((new service).run actions).record act).of id := by
      rw [history, journal_concat, Journal.of_append]
      rfl
    have hwaits : (ledger ((new service).history (actions ++ [act]) id)).waiting ≠ [] := by
      intro hnil
      have hmap := ((booked_run service (actions ++ [act]) id).1 c' hc').inbox
      rw [hnil] at hmap
      exact hinbox hmap.symm
    rw [run_concat] at hc' ⊢
    by_cases hbefore : (ledger ((new service).history actions id)).waiting = []
    · rw [hhistory] at hwaits
      obtain ⟨m, seats, htold⟩ := told_of_waiting hbefore hwaits
      exact deliver_of_told (coherent_run service actions) (Journal.mem_of.mp htold)
    · -- Something waited before, and its delivery still waits unless it was run just now.
      cases hc : ((new service).run actions).client? id with
      | none =>
        rw [(booked_run service actions id).2 hc] at hbefore
        exact absurd rfl hbefore
      | some c =>
        have hwaited : c.inbox ≠ [] := by
          rw [← ((booked_run service actions id).1 c hc).inbox]
          exact fun hnil => hbefore (List.map_eq_nil_iff.mp hnil)
        refine mem_pending_of_not_run (fun place jobs hact htaken => hinbox ?_) (ih id c hc hwaited)
        subst hact
        rw [client?_perform_deliver htaken, if_pos rfl, hc] at hc'
        rw [← Option.some.inj hc']
        exact Client.inbox_afterDelivery c.inbox c

/-! ## Running all that waits -/

/-- Running what waits is a part of a run, after which nothing waits to be run. -/
theorem runPending_eq_run (r : Relay) :
    (∃ n, r.runPending.2 = r.run (List.replicate n (.runJob 0))) ∧ r.runPending.2.jobs.pending = [] := by
  fun_induction runPending r with
  | case1 r h =>
    refine ⟨⟨0, rfl⟩, ?_⟩
    rcases hjobs : r.jobs with ⟨_ | ⟨job, rest⟩⟩
    · rfl
    · rw [hjobs] at h
      cases h
  | case2 r job rest h n s hs ih =>
    obtain ⟨⟨k, hk⟩, hnone⟩ := ih
    rw [hs] at hk hnone
    have hstep : r.perform (.runJob 0) = { r with jobs := rest }.runJob job := by
      rw [← runNext_eq_perform, runNext, h]
    refine ⟨⟨k + 1, ?_⟩, hnone⟩
    rw [List.replicate_succ, run_cons, hstep]
    exact hk

/-- The deliveries that wait are run, in some order and nothing else in between, until none is left. -/
def DeliversAll : Relay → List Action → Prop
  | r, [] => ∀ id, .deliver id ∉ r.jobs.pending
  | r, act :: rest =>
    (∃ place id jobs, act = .runJob place ∧ r.jobs.takeAt place = some (.deliver id, jobs)) ∧
      DeliversAll (r.perform act) rest

theorem exists_deliversAll (r : Relay) : ∃ xs, r.DeliversAll xs := by
  generalize hn : r.jobs.pending.length = n
  induction n generalizing r with
  | zero =>
    refine ⟨[], fun id hmem => ?_⟩
    rw [List.eq_nil_of_length_eq_zero hn] at hmem
    cases hmem
  | succ n ih =>
    by_cases hdeliver : ∃ id, .deliver id ∈ r.jobs.pending
    · obtain ⟨id, hmem⟩ := hdeliver
      obtain ⟨place, jobs, htaken⟩ := takeAt_of_mem hmem
      have hlength : (r.perform (.runJob place)).jobs.pending.length = n := by
        obtain ⟨pre, post, hpending, -, rfl⟩ := JobQueue.takeAt_eq_some.mp htaken
        rw [perform_of_takeAt htaken, jobs_runJob_deliver]
        rw [hpending, List.length_append, List.length_cons] at hn
        show (pre ++ post).length = n
        rw [List.length_append]
        omega
      obtain ⟨xs, hxs⟩ := ih (r.perform (.runJob place)) hlength
      exact ⟨.runJob place :: xs, ⟨place, id, jobs, rfl, htaken⟩, hxs⟩
    · exact ⟨[], fun id hmem => hdeliver ⟨id, hmem⟩⟩

/-- **The order of deliveries does not matter**: everybody has got what was in the inbox in the beginning. -/
theorem client?_deliversAll {service : Service} {actions xs : List Action}
    (h : ((new service).run actions).DeliversAll xs) (id : ClientId) :
    (((new service).run actions).run xs).client? id =
      (((new service).run actions).client? id).map fun c => c.afterDelivery c.inbox := by
  induction xs generalizing actions with
  | nil =>
    cases hc : ((new service).run actions).client? id with
    | none => exact hc
    | some c =>
      have hinbox : c.inbox = [] := by
        by_contra hwaits
        exact h id (awaited_run service actions id c hc hwaits)
      rw [run_nil, hc, Option.map_some, Client.afterDelivery_nil hinbox]
  | cons act rest ih =>
    obtain ⟨⟨place, d, jobs, rfl, htaken⟩, hrest⟩ := h
    rw [← run_concat] at hrest
    rw [run_cons, ← run_concat, ih hrest, run_concat, client?_perform_deliver htaken]
    split
    · rw [Option.map_map]
      exact congrArg (Option.map · _) (funext Client.afterDelivery_again)
    · rfl

/-- Deliveries take nothing from the writers. -/
theorem taken_deliversAll {xs : List Action} (h : r.DeliversAll xs) (id : ClientId) :
    (r.history xs id).flatMap Event.taken = [] := by
  induction xs generalizing r with
  | nil => rfl
  | cons act rest ih =>
    obtain ⟨⟨place, d, jobs, rfl, htaken⟩, hrest⟩ := h
    have hrecord : ((r.record (.runJob place)).of id).flatMap Event.taken = [] := by
      rw [record_deliver htaken]
      cases hc : r.client? d with
      | none =>
        rw [note_none hc]
        rfl
      | some c =>
        rw [note_eq hc]
        by_cases heq : d = id
        · rw [heq, Journal.of_map_self]
          exact Client.taken_recordDelivery c.inbox c
        · rw [Journal.of_map_ne heq]
          rfl
    rw [history, journal, Journal.of_append, List.flatMap_append, hrecord]
    exact ih hrest

/-- **Delivery is in order, loses and doubles nothing, and strands nobody.** Take any run.

As long as a client has a writer and no notice for it failed to be packed, its channel holds what it was sent,
all of it genuine, and what was ever queued for it is what was delivered of it, followed by its inbox.

For whom something waits, a delivery waits that has not run yet. So once no jobs are left, all inboxes are
empty, and that is how running what waits ends.

The deliveries that wait can be run in some order. In whichever order they are run, each client is after
them as if its inbox was delivered at once, and its channel holds the same.

A delivery hands over what waits, one thing after the other. If a notice cannot be packed, what waits behind
it is dropped and the writer is told to close. -/
theorem delivered_run (service : Service) (actions : List Action) :
    (∀ id c, ((new service).run actions).client? id = some c → c.outbox.isOpen = true →
      (∀ code, .cut code ∉ (new service).history actions id) →
      channel service actions id =
        (ledger ((new service).history actions id)).sent.map Entry.item ∧
      (∀ x ∈ (ledger ((new service).history actions id)).sent, x.Genuine c) ∧
      queued ((new service).history actions id) =
        (ledger ((new service).history actions id)).delivered ++ c.inbox) ∧
    (∀ id c, ((new service).run actions).client? id = some c → c.inbox ≠ [] →
      .deliver id ∈ ((new service).run actions).jobs.pending) ∧
    (((new service).run actions).jobs.pending = [] →
      ∀ id c, ((new service).run actions).client? id = some c → c.inbox = []) ∧
    (((new service).run actions).runPending.2.jobs.pending = [] ∧
      ∀ id c, ((new service).run actions).runPending.2.client? id = some c → c.inbox = []) ∧
    (∃ xs, ((new service).run actions).DeliversAll xs) ∧
    (∀ xs, ((new service).run actions).DeliversAll xs → ∀ id,
      (((new service).run actions).run xs).client? id =
        (((new service).run actions).client? id).map fun c => c.afterDelivery c.inbox) ∧
    (∀ xs ys, ((new service).run actions).DeliversAll xs → ((new service).run actions).DeliversAll ys →
      ∀ id, channel service (actions ++ xs) id = channel service (actions ++ ys) id) ∧
    ∀ place id jobs c, ((new service).run actions).jobs.takeAt place = some (.deliver id, jobs) →
      ((new service).run actions).client? id = some c →
      (∀ c₁, c.inbox.foldlM Client.hand c = .ok c₁ →
        (((new service).run actions).perform (.runJob place)).client? id = some { c₁ with inbox := [] }) ∧
      ∀ before m after c₁ e, c.inbox = before ++ .notice m :: after →
        before.foldlM Client.hand c = .ok c₁ → c₁.send m = .error e →
        (((new service).run actions).perform (.runJob place)).client? id =
          some ({ c₁ with inbox := [] }.close e.closeCode) ∧
        .cut e.closeCode ∈ (((new service).run actions).record (.runJob place)).of id := by
  have hempty : ∀ more, ((new service).run more).jobs.pending = [] →
      ∀ id c, ((new service).run more).client? id = some c → c.inbox = [] := by
    intro more hnone id c hc
    by_contra hwaits
    have hmem := awaited_run service more id c hc hwaits
    rw [hnone] at hmem
    cases hmem
  refine ⟨fun id c hc hopen hcut => ?_, awaited_run service actions, hempty actions, ?_,
    exists_deliversAll _, fun xs hxs id => client?_deliversAll hxs id, fun xs ys hxs hys id => ?_,
    fun place id jobs c htaken hc => ?_⟩
  · have hbooked := (booked_run service actions id).1 c hc
    exact ⟨channel_eq_sent hc hopen, hbooked.genuine,
      queued_eq hbooked hcut fun _ _ => isServerAuth_of_told⟩
  · obtain ⟨⟨n, hn⟩, hnone⟩ := runPending_eq_run ((new service).run actions)
    rw [hn, ← run_append] at hnone ⊢
    exact ⟨hnone, hempty _ hnone⟩
  · have hchannel : ∀ xs, ((new service).run actions).DeliversAll xs →
        channel service (actions ++ xs) id = ((new service).history actions id).flatMap Event.taken ++
          ((((new service).run actions).client? id).map fun c => c.afterDelivery c.inbox).elim []
            fun c => c.outbox.items := by
      intro xs hxs
      rw [channel, run_append, history_append, List.flatMap_append, taken_deliversAll hxs,
        List.append_nil, client?_deliversAll hxs]
    rw [hchannel xs hxs, hchannel ys hys]
  · refine ⟨fun c₁ hhanded => ?_, fun before m after c₁ e hinbox hhanded hsend => ⟨?_, ?_⟩⟩
    · rw [client?_perform_deliver htaken, if_pos rfl, hc, Option.map_some,
        Client.afterDelivery_of_handed hhanded]
    · rw [client?_perform_deliver htaken, if_pos rfl, hc, Option.map_some, hinbox,
        Client.afterDelivery_of_error hhanded hsend]
    · rw [record_deliver htaken, note_eq hc, Journal.of_map_self, hinbox]
      exact Client.cut_mem_recordDelivery hhanded hsend after

end Relay

end Rendezvous
