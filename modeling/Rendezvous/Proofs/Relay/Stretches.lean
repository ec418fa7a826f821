import Rendezvous.Proofs.Relay.Bystanders

/-!
# While others go on

Between two steps of one client the relay is busy with others. A client that is left alone for a while is
found as it was, except that its writer may have taken what waited, and a job that waits is not lost.

* **`LeftAlone`** — a stretch of a run in which nothing happens about a client.
* **`leftAlone_run`** — the client after it.
* **`mem_pending_run`** — a job for the client still waits.
-/

namespace Rendezvous.Relay

variable {r s : Relay} {id : ClientId} {c : Client} {act : Action} {job : Job}

/-! ## Jobs that wait -/

/-- Jobs are only added. -/
def KeepsJobs (r s : Relay) : Prop :=
  r.jobs.pending <+: s.jobs.pending

theorem KeepsJobs.of_eq (h : s.jobs = r.jobs) : KeepsJobs r s := by
  simp only [KeepsJobs, h, List.prefix_rfl]

theorem AddsDeliveries.keepsJobs (h : AddsDeliveries r s) : KeepsJobs r s := by
  obtain ⟨ids, hids⟩ := h
  rw [KeepsJobs, hids]
  exact List.prefix_append ..

theorem jobs_update (r : Relay) (id : ClientId) (f : Client → Except ProtocolError Client) :
    (r.update id f).2.jobs = r.jobs := by
  rcases update_cases r id f with ⟨-, heq⟩ | ⟨c, e, -, -, heq⟩ | ⟨c, c', -, -, heq⟩
  · rw [heq]
  · rw [heq]
  · rw [heq]
    rfl

theorem jobs_handleRaw (r : Relay) (id : ClientId) (c : Client) (h : Header) (frame : Bytes) :
    (r.handleRaw id c h frame).2.jobs = r.jobs := by
  have hpassed : (r.passOn c.path h frame).2.jobs = r.jobs := by
    unfold passOn forward
    split
    · split <;> rfl
    · rfl
  have hrefused : ∀ s : Relay, (s.refuse id h).2.jobs = s.jobs := by
    intro s
    rcases refuse_cases s id h with ⟨f, -, heq⟩ | ⟨c, e, -, -, heq⟩ | ⟨c, reply, c', f, -, -, heq⟩ <;>
      rw [heq] <;> rfl
  unfold handleRaw
  split
  · split
    · next s hs =>
      rw [hs] at hpassed
      exact hpassed
    · next s hs =>
      rw [hs] at hpassed
      exact (hrefused s).trans hpassed
  · rfl

theorem keepsJobs_handle (r : Relay) (id : ClientId) (c : Client) (m : Message) :
    KeepsJobs r (r.handle id c m).2 := by
  cases m with
  | clientHello key => exact .of_eq (jobs_update ..)
  | clientAuth auth =>
    obtain ⟨outcome, s, hs, heq⟩ := handleClientAuth_cases r id auth
    have hjobs := jobs_update r id fun c => c.authorize r.service auth
    rw [hs] at hjobs
    show KeepsJobs r (r.handleClientAuth id auth).2
    rcases heq with heq | heq
    · rw [heq]
      exact .of_eq hjobs
    · -- The answer is put off.
      rw [heq, KeepsJobs, ← hjobs]
      exact List.prefix_append ..
  | dropResponder responder reason =>
    show KeepsJobs r (r.handleDropResponder c responder reason).2
    rcases handleDropResponder_cases r c responder reason with ⟨-, heq⟩ | ⟨-, -, -, heq⟩ |
      ⟨other, f, -, -, -, heq⟩ <;> rw [heq] <;> exact .of_eq rfl
  | raw h frame => exact .of_eq (jobs_handleRaw r id c h frame)
  | _ => exact .of_eq rfl

theorem keepsJobs_disconnected (r : Relay) (id : ClientId) : KeepsJobs r (r.disconnected id).2 := by
  rcases disconnected_cases r id with ⟨-, heq⟩ | ⟨c, outcome, -, -, heq⟩ |
    ⟨c, role, outcome, -, -, -, -, heq⟩
  · rw [heq]
    exact .of_eq rfl
  · rw [heq]
    exact .of_eq (jobs_departed ..)
  · have htold := addsDeliveries_announce (r.departed id c) c.path role (.disconnected c.id)
    rw [heq, KeepsJobs, ← jobs_departed r id c]
    exact htold.keepsJobs

/-- Nothing but running a job takes one away. -/
theorem keepsJobs_perform (hact : ∀ place, act ≠ .runJob place) : KeepsJobs r (r.perform act) := by
  cases act with
  | accept => exact .of_eq rfl
  | greet | unpack | pack | send => exact .of_eq (jobs_update ..)
  | receive id bytes =>
    show KeepsJobs r (r.received id bytes).2
    rcases received_cases r id bytes with ⟨outcome, heq⟩ | ⟨c, m, c', -, -, heq⟩
    · rw [heq]
      exact .of_eq rfl
    · rw [heq]
      exact keepsJobs_handle (r.setClient id c') id c' m
  | answer id => exact (addsDeliveries_sendServerAuth r id).keepsJobs
  | disconnect id => exact keepsJobs_disconnected r id
  | runJob place => exact absurd rfl (hact place)
  | fail => exact .of_eq (jobs_fail ..)
  | close | collect | hangUp => exact .of_eq rfl

/-- A job waits until it is run itself. -/
theorem mem_pending_of_not_run
    (h : ∀ place jobs, act = .runJob place → r.jobs.takeAt place ≠ some (job, jobs))
    (hjob : job ∈ r.jobs.pending) : job ∈ (r.perform act).jobs.pending := by
  by_cases hact : ∃ place, act = .runJob place
  · obtain ⟨place, rfl⟩ := hact
    cases htaken : r.jobs.takeAt place with
    | none =>
      rw [perform, htaken]
      exact hjob
    | some taken =>
      obtain ⟨other, jobs⟩ := taken
      -- The job that is run is another one, so this one is left.
      have hleft : job ∈ jobs.pending := by
        obtain ⟨found, hfound, heq⟩ := Option.map_eq_some_iff.mp htaken
        cases heq
        obtain ⟨n, hn, hget⟩ := List.getElem_of_mem hjob
        refine List.mem_eraseIdx_iff_getElem.mpr ⟨n, hn, fun hplace => ?_, hget⟩
        subst hplace
        rw [List.getElem?_eq_getElem hn, hget] at hfound
        cases hfound
        exact h n _ rfl htaken
      have hkept := (addsDeliveries_runJob { r with jobs := jobs } other).keepsJobs
      rw [perform, htaken]
      exact hkept.subset hleft
  · exact (keepsJobs_perform fun place heq => hact ⟨place, heq⟩).subset hjob

/-- A job waits on while something happens that is not about its client. -/
theorem mem_pending_perform (h : r.subject? act ≠ some job.client) (hjob : job ∈ r.jobs.pending) :
    job ∈ (r.perform act).jobs.pending := by
  refine mem_pending_of_not_run (fun place jobs hact htaken => h ?_) hjob
  rw [hact, subject?, htaken]
  rfl

/-- A job that waits has a place in the queue. -/
theorem takeAt_of_mem {q : JobQueue Job} (h : job ∈ q.pending) :
    ∃ place jobs, q.takeAt place = some (job, jobs) := by
  obtain ⟨place, hplace, hget⟩ := List.getElem_of_mem h
  refine ⟨place, ⟨q.pending.eraseIdx place⟩, ?_⟩
  rw [JobQueue.takeAt, List.getElem?_eq_getElem hplace, hget]
  rfl

/-! ## Clients that are left alone -/

/-- Nothing happens about a client, except that its writer may take what waits for it. -/
def LeftAlone (id : ClientId) : Relay → List Action → Prop
  | _, [] => True
  | r, act :: rest =>
    (r.subject? act ≠ some id ∨ act = .collect id) ∧ LeftAlone id (r.perform act) rest

/-- **A client that is left alone** before it is authenticated is found as it was, and its writer is still
there if it was. -/
theorem leftAlone_run {gap : List Action} (hr : r.census.Coherent) (hc : r.client? id = some c)
    (hauth : c.isAuthenticated = false) (h : LeftAlone id r gap) :
    ∃ outbox, (r.run gap).client? id = some { c with outbox := outbox } ∧
      outbox.isOpen = c.outbox.isOpen := by
  induction gap generalizing r c with
  | nil => exact ⟨c.outbox, hc, rfl⟩
  | cons act rest ih =>
    obtain ⟨hact, hrest⟩ := h
    have hcoherent := coherent_perform hr act
    rcases hact with hact | rfl
    · exact ih hcoherent (spared_perform hr hact hc hauth) hauth hrest
    · have hc' : (r.perform (.collect id)).client? id =
          some { c with outbox := c.outbox.drain.2 } := by
        rw [perform, client?_modifyClient, if_pos rfl, hc]
        rfl
      obtain ⟨outbox, hclient, hopen⟩ := ih hcoherent hc' hauth hrest
      exact ⟨outbox, hclient, hopen⟩

theorem mem_pending_run {gap : List Action} (hjob : job ∈ r.jobs.pending)
    (h : LeftAlone job.client r gap) : job ∈ (r.run gap).jobs.pending := by
  induction gap generalizing r with
  | nil => exact hjob
  | cons act rest ih =>
    obtain ⟨hact, hrest⟩ := h
    refine ih ?_ hrest
    rcases hact with hact | rfl
    · exact mem_pending_perform hact hjob
    · exact hjob

end Rendezvous.Relay
