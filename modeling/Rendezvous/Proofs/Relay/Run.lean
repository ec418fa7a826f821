import Rendezvous.Relay.Jobs

/-!
# Runs of a relay

Everything that can happen to a relay from outside is an `Action`: connections come, frames arrive,
connections end, writers take what waits for them, and what was put off is run, in any order
(`Action.runJob` names a job by its place in the queue). A run is a list of actions from a relay
without connections on; each action is one step.

* **`Relay.perform`** — one step, which is the handler of the action.
* **`Relay.run`** — the steps of a list of actions, one after the other.
* **`Relay.run_induction`** — what holds at the start and is kept by each step holds after every run.
-/

namespace Rendezvous

/-- Something in a list is the last, or stands before the last. -/
theorem concat_eq_append_cons {α : Type} {xs pre post : List α} {x y : α} :
    xs ++ [y] = pre ++ x :: post ↔
      (xs = pre ∧ y = x ∧ post = []) ∨ ∃ post', xs = pre ++ x :: post' ∧ post = post' ++ [y] := by
  constructor
  · intro h
    rcases List.eq_nil_or_concat post with rfl | ⟨post', z, rfl⟩
    · obtain ⟨rfl, hlast⟩ := List.append_inj' h rfl
      cases hlast
      exact .inl ⟨rfl, rfl, rfl⟩
    · rw [List.concat_eq_append, ← List.cons_append, ← List.append_assoc] at h
      obtain ⟨rfl, hlast⟩ := List.append_inj' h rfl
      cases hlast
      exact .inr ⟨post', rfl, List.concat_eq_append⟩
  · rintro (⟨rfl, rfl, rfl⟩ | ⟨post', rfl, rfl⟩)
    · rfl
    · simp

/-- What holds of a list holds still when something is added on a condition, if it holds then. -/
theorem append_ite {α : Type} {P : List α → Prop} {p : Prop} [Decidable p] {xs : List α} {x : α}
    (h : P xs) (hx : p → P (xs ++ [x])) : P (xs ++ if p then [x] else []) := by
  split
  · next hp => exact hx hp
  · rw [List.append_nil]
    exact h

/-- Takes the job at a place of the queue out. -/
def JobQueue.takeAt {α : Type u} (q : JobQueue α) (place : Nat) : Option (α × JobQueue α) :=
  q.pending[place]?.map fun job => (job, ⟨q.pending.eraseIdx place⟩)

/-- What is taken out stands between what is before it and what is behind it. -/
theorem JobQueue.takeAt_eq_some {α : Type u} {q q' : JobQueue α} {place : Nat} {job : α} :
    q.takeAt place = some (job, q') ↔
      ∃ pre post, q.pending = pre ++ job :: post ∧ pre.length = place ∧ q' = ⟨pre ++ post⟩ := by
  unfold takeAt
  constructor
  · intro h
    obtain ⟨found, hfound, heq⟩ := Option.map_eq_some_iff.mp h
    cases heq
    obtain ⟨hlt, hget⟩ := List.getElem?_eq_some_iff.mp hfound
    refine ⟨q.pending.take place, q.pending.drop (place + 1), ?_, ?_, ?_⟩
    · rw [← hget, List.getElem_cons_drop, List.take_append_drop]
    · rw [List.length_take]
      omega
    · rw [List.eraseIdx_eq_take_drop_succ]
  · rintro ⟨pre, post, hpending, rfl, rfl⟩
    rw [hpending, List.getElem?_append_right (Nat.le_refl _), Nat.sub_self,
      List.eraseIdx_append_of_length_le (Nat.le_refl _), Nat.sub_self]
    rfl

/-- Something that happens to a relay. -/
inductive Action where
  | accept (key : PublicKey) (subprotocol : String) (draw : Relay.Draw)
  | greet (client : ClientId)
  /-- A frame of a client arrives and is handled. -/
  | receive (client : ClientId) (frame : Bytes)
  /-- A frame of a client is only checked and read. -/
  | unpack (client : ClientId) (frame : Bytes)
  /-- A frame for a client is packed, and not sent. -/
  | pack (client : ClientId) (destination : Address) (message : Message)
  | send (client : ClientId) (message : Message)
  | answer (client : ClientId)
  | disconnect (client : ClientId)
  /-- The job at a place of the queue is run. -/
  | runJob (place : Nat)
  | fail (client : ClientId) (error : ProtocolError)
  | close (client : ClientId) (code : CloseCode)
  /-- The writer of a client takes what waits for it. -/
  | collect (client : ClientId)
  /-- The writer of a client goes away. -/
  | hangUp (client : ClientId)

namespace Relay

/-- The relay after an action. -/
def perform (r : Relay) : Action → Relay
  | .accept key subprotocol draw => (r.accept key subprotocol draw).2
  | .greet id => (r.sendServerHello id).2
  | .receive id frame => (r.received id frame).2
  | .unpack id frame => (r.update id fun c => Prod.snd <$> c.unpack frame).2
  | .pack id destination m => (r.update id fun c => Prod.snd <$> c.pack destination m).2
  | .send id m => (r.update id fun c => c.send m).2
  | .answer id => (r.sendServerAuth id).2
  | .disconnect id => (r.disconnected id).2
  | .runJob place =>
    match r.jobs.takeAt place with
    | some (job, jobs) => { r with jobs := jobs }.runJob job
    | none => r
  | .fail id e => r.fail id e
  | .close id code => r.close id code
  | .collect id => r.modifyClient id fun c => { c with outbox := c.outbox.drain.2 }
  | .hangUp id => r.modifyClient id fun c => { c with outbox := c.outbox.dropWriter }

/-- The relay after some actions, in their order. -/
def run (r : Relay) (actions : List Action) : Relay :=
  actions.foldl perform r

@[simp] theorem run_nil (r : Relay) : r.run [] = r := rfl

@[simp] theorem run_cons (r : Relay) (a : Action) (actions : List Action) :
    r.run (a :: actions) = (r.perform a).run actions := rfl

theorem run_append (r : Relay) (xs ys : List Action) : r.run (xs ++ ys) = (r.run xs).run ys :=
  List.foldl_append

@[simp] theorem run_concat (r : Relay) (actions : List Action) (a : Action) :
    r.run (actions ++ [a]) = (r.run actions).perform a := by
  rw [run_append, run_cons, run_nil]

/-- The oldest job is the one at the first place. -/
theorem runNext_eq_perform (r : Relay) : r.runNext.2 = r.perform (.runJob 0) := by
  rcases r with ⟨_, _, _, _, _, ⟨_ | ⟨job, rest⟩⟩⟩ <;> rfl

/-- **Invariants of runs.** Induction on the run, whose last action is the step. -/
theorem run_induction {P : Relay → Prop} {r : Relay} (start : P r)
    (step : ∀ r a, P r → P (r.perform a)) (actions : List Action) : P (r.run actions) := by
  induction actions generalizing r with
  | nil => exact start
  | cons a rest ih => exact ih (step r a start)

end Relay

end Rendezvous
