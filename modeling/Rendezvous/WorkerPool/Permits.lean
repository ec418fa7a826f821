/-!
A stock of permits. Whoever asks for a permit gets a free one or waits for one, and a permit that is
given back goes to the first who waits. A closed stock gives out none. Main statement: as long as
someone waits no permit is free, whatever is done (`Fair`).
-/

namespace Rendezvous

/-- Permits that are free, and those who wait for one, the first in front. -/
structure Permits (α : Type u) where
  free : Nat
  waiting : List α
  closed : Bool
  deriving DecidableEq, Repr

/-- What becomes of a request for a permit. -/
inductive Grant where
  | granted
  | queued
  | refused
  deriving DecidableEq, Repr

namespace Permits

variable {α : Type u}

/-- How many permits a stock can have. -/
def maximum : Nat := Nat.pow 2 61 - 1

/-- A stock of free permits. -/
def ofCount? (n : Nat) : Option (Permits α) :=
  if n ≤ maximum then some ⟨n, [], false⟩ else none

/-- Asks for a permit, and waits for it if none is free. -/
def acquire (p : Permits α) (a : α) : Grant × Permits α :=
  if p.closed then (.refused, p)
  else if p.free = 0 then (.queued, { p with waiting := p.waiting ++ [a] })
  else (.granted, { p with free := p.free - 1 })

/-- Gives a permit back, and tells who gets it. -/
def release (p : Permits α) : Option α × Permits α :=
  match p.waiting with
  | [] => (none, { p with free := p.free + 1 })
  | a :: rest => (some a, { p with waiting := rest })

/-- Ends the giving out of permits, and tells who waited in vain. -/
def close (p : Permits α) : List α × Permits α :=
  (p.waiting, { p with waiting := [], closed := true })

/-! ## What becomes of a request -/

variable {p : Permits α}

theorem acquire_of_closed (h : p.closed = true) (a : α) : p.acquire a = (.refused, p) :=
  if_pos h

theorem acquire_of_full (hopen : p.closed = false) (hfull : p.free = 0) (a : α) :
    p.acquire a = (.queued, { p with waiting := p.waiting ++ [a] }) := by
  simp [acquire, hopen, hfull]

theorem acquire_of_free (hopen : p.closed = false) (hfree : 0 < p.free) (a : α) :
    p.acquire a = (.granted, { p with free := p.free - 1 }) := by
  simp [acquire, hopen, Nat.ne_of_gt hfree]

theorem release_of_nil (h : p.waiting = []) : p.release = (none, { p with free := p.free + 1 }) := by
  simp only [release, h]

theorem release_of_cons {a : α} {rest : List α} (h : p.waiting = a :: rest) :
    p.release = (some a, { p with waiting := rest }) := by
  simp only [release, h]

/-! ## Who waits -/

/-- Nobody waits while a permit is free or the stock is closed. -/
def Fair (p : Permits α) : Prop :=
  p.waiting ≠ [] → p.free = 0 ∧ p.closed = false

theorem fair_of_nobody (h : p.waiting = []) : p.Fair :=
  fun hw => absurd h hw

theorem Fair.acquire (h : p.Fair) (a : α) : (p.acquire a).2.Fair := by
  unfold Permits.acquire
  split
  · exact h
  · split
    · exact fun _ => ⟨‹_›, by simpa using ‹¬p.closed = true›⟩
    · exact fun hw => absurd (h hw).1 ‹_›

theorem Fair.release (h : p.Fair) : p.release.2.Fair := by
  unfold Permits.release
  split
  · next hnone => exact fair_of_nobody hnone
  · next hnext => exact fun _ => h (by simp [hnext])

theorem fair_close (p : Permits α) : p.close.2.Fair :=
  fair_of_nobody rfl

end Permits

end Rendezvous
