import Rendezvous.Relay.Traffic

/-!
Running what a relay put off. A job that answers a client may dispatch deliveries; a delivery
dispatches nothing. So all jobs come to an end.
-/

namespace Rendezvous.Relay

/-- Runs a job. A failure ends the connection that the job is for. -/
def runJob (r : Relay) : Job → Relay
  | .answer id =>
    match r.sendServerAuth id with
    | (.ok (), r) => r
    | (.error e, r) => r.fail id e
  | .deliver id =>
    match r.client? id with
    | none => r
    | some c =>
      match c.deliverInbox with
      | (none, c) => r.setClient id c
      | (some e, c) => (r.setClient id c).fail id e

/-! ### What a job dispatches -/

/-- A state that follows from another by putting off some deliveries. -/
def AddsDeliveries (r s : Relay) : Prop :=
  ∃ ids : List ClientId, s.jobs.pending = r.jobs.pending ++ ids.map Job.deliver

theorem AddsDeliveries.of_eq {r s : Relay} (h : s.jobs = r.jobs) : AddsDeliveries r s :=
  ⟨[], by simp [h]⟩

theorem AddsDeliveries.trans {r s t : Relay} (h : AddsDeliveries r s) (h' : AddsDeliveries s t) :
    AddsDeliveries r t := by
  obtain ⟨xs, hx⟩ := h
  obtain ⟨ys, hy⟩ := h'
  exact ⟨xs ++ ys, by simp [hx, hy]⟩

@[simp] theorem jobs_modifyClient (r : Relay) (id : ClientId) (f : Client → Client) :
    (r.modifyClient id f).jobs = r.jobs := rfl

@[simp] theorem jobs_setClient (r : Relay) (id : ClientId) (c : Client) :
    (r.setClient id c).jobs = r.jobs := rfl

@[simp] theorem jobs_setSlots (r : Relay) (path : PathId) (s : Slots ClientId) :
    (r.setSlots path s).jobs = r.jobs := rfl

@[simp] theorem jobs_count (r : Relay) (f : Metrics → Metrics) : (r.count f).jobs = r.jobs := rfl

@[simp] theorem jobs_close (r : Relay) (id : ClientId) (code : CloseCode) :
    (r.close id code).jobs = r.jobs := rfl

@[simp] theorem jobs_fail (r : Relay) (id : ClientId) (e : ProtocolError) :
    (r.fail id e).jobs = r.jobs := by
  unfold fail
  split <;> rfl

@[simp] theorem jobs_displace (r : Relay) (id : ClientId) (displaced : Option ClientId) :
    (r.displace id displaced).jobs = r.jobs := by
  unfold displace
  split
  · split <;> rfl
  · rfl

@[simp] theorem jobs_livePath (r : Relay) (c : Client) : (r.livePath c).2.jobs = r.jobs := by
  unfold livePath
  split
  · split <;> rfl
  · rfl

@[simp] theorem jobs_vacate (r : Relay) (path : PathId) (a : Address) (id : ClientId) :
    (r.vacate path a id).2.jobs = r.jobs := rfl

theorem jobs_of_seat {r : Relay} {path : PathId} {id : ClientId} {role : Role}
    {result : Seat × Relay} (h : r.seat path id role = .ok result) : result.2.jobs = r.jobs := by
  cases role with
  | initiator => cases h; rfl
  | responder =>
    simp only [seat] at h
    split at h
    · cases h; rfl
    · cases h

theorem addsDeliveries_notify (r : Relay) (id : ClientId) (m : Message) :
    AddsDeliveries r (r.notify id m) :=
  ⟨[id], rfl⟩

theorem addsDeliveries_notifyAll (r : Relay) (ids : List ClientId) (m : Message) :
    AddsDeliveries r (r.notifyAll ids m) := by
  induction ids generalizing r with
  | nil => exact .of_eq rfl
  | cons id ids ih => exact (addsDeliveries_notify r id m).trans (ih _)

theorem addsDeliveries_announce (r : Relay) (path : PathId) (role : Role) (m : Message) :
    AddsDeliveries r (r.announce path role m) := by
  cases role <;> exact addsDeliveries_notifyAll ..

theorem addsDeliveries_answer (r : Relay) (id : ClientId) (c : Client) (a : Admission)
    (cookie : Cookie) : AddsDeliveries r (r.answer id c a cookie).2 := by
  unfold answer
  simp only
  split
  · exact .of_eq (by simp)
  · next s r' hseat =>
    have hjobs : r'.jobs = r.jobs := by
      have := jobs_of_seat hseat
      simpa using this
    split
    · exact .of_eq (by simpa using hjobs)
    · next frame c' _ =>
      have h := addsDeliveries_announce (r'.setClient id (seated c' a s.address frame))
        (r.livePath c).1 a.role (joined a.role s.address)
      obtain ⟨ids, hids⟩ := h
      refine ⟨ids, ?_⟩
      simpa [hjobs] using hids

theorem addsDeliveries_sendServerAuth (r : Relay) (id : ClientId) :
    AddsDeliveries r (r.sendServerAuth id).2 := by
  unfold sendServerAuth
  split
  · exact .of_eq rfl
  · split
    · exact .of_eq rfl
    · split
      · exact addsDeliveries_answer ..
      · exact .of_eq rfl
      · exact .of_eq rfl

theorem addsDeliveries_runJob (r : Relay) (job : Job) : AddsDeliveries r (r.runJob job) := by
  cases job with
  | answer id =>
    have h := addsDeliveries_sendServerAuth r id
    simp only [runJob]
    split
    · next hs => simpa [hs] using h
    · next hs =>
      rw [hs] at h
      exact h.trans (.of_eq (by simp))
  | deliver id =>
    simp only [runJob]
    split
    · exact .of_eq rfl
    · split <;> exact .of_eq (by simp)

theorem jobs_runJob_deliver (r : Relay) (id : ClientId) : (r.runJob (.deliver id)).jobs = r.jobs := by
  simp only [runJob]
  split
  · rfl
  · split <;> simp

/-! ### Running jobs -/

/-- Runs the oldest job, and tells whether there was one. -/
def runNext (r : Relay) : Bool × Relay :=
  match r.jobs.takeNext with
  | none => (false, r)
  | some (job, rest) => (true, { r with jobs := rest }.runJob job)

/-- Runs jobs, the ones they dispatch included, until none is left, and tells how many ran. -/
def runPending (r : Relay) : Nat × Relay :=
  match _h : r.jobs.takeNext with
  | none => (0, r)
  | some (job, rest) =>
    let (n, r) := ({ r with jobs := rest }.runJob job).runPending
    (n + 1, r)
termination_by (r.jobs.pending.countP Job.isAnswer, r.jobs.pending.length)
decreasing_by
  have hpending : r.jobs.pending = job :: rest.pending := by
    revert _h
    rcases r.jobs with ⟨_ | ⟨x, xs⟩⟩
    · simp [JobQueue.takeNext]
    · simp only [JobQueue.takeNext, Option.some.injEq, Prod.mk.injEq]
      rintro ⟨rfl, rfl⟩
      rfl
  rw [hpending]
  cases job with
  | answer id =>
    apply Prod.Lex.left
    obtain ⟨ids, hids⟩ := addsDeliveries_runJob { r with jobs := rest } (.answer id)
    have hnone : (ids.map Job.deliver).countP Job.isAnswer = 0 := by
      simp [List.countP_eq_zero, Job.isAnswer]
    have hone : Job.isAnswer (.answer id) = true := rfl
    rw [hids, List.countP_append, hnone, List.countP_cons_of_pos hone]
    exact Nat.lt_succ_self _
  | deliver id =>
    rw [jobs_runJob_deliver]
    have hzero : ¬ Job.isAnswer (.deliver id) = true := by simp [Job.isAnswer]
    rw [List.countP_cons_of_neg hzero]
    apply Prod.Lex.right
    exact Nat.lt_succ_self _

/-- Takes all jobs out and runs them with the last one first, and tells how many there were. What
they dispatch stays queued. -/
def runReversed (r : Relay) : Nat × Relay :=
  let taken := r.jobs.pending
  (taken.length, taken.reverse.foldl runJob { r with jobs := .empty })

end Rendezvous.Relay
