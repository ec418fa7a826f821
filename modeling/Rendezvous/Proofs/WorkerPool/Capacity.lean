import Mathlib.Algebra.Group.Nat.Defs
import Rendezvous.Server.Basic

/-!
# Which pools there are

A pool has a permit for every worker, and one for the admission of every job that runs or waits. The
numbers of a configuration have 64 bits, and so has their sum, which is cut to the greatest such number; but a
stock has fewer permits than that, so the cut comes too late, and there is no pool for the greatest sums.

* **`WorkerPool.ofSettings?_eq`** — there is a pool as long as a stock can have the permits for admission,
  and then no sum was cut.
* **`WorkerPool.created_iff`** — which of the configurations that pass all checks get a pool, and a server.
* **`WorkerPool.oversized_not_created`** — one that passes all checks and gets none.
-/

namespace Rendezvous

/-- How many workers there are. -/
def WorkerSettings.workers (s : WorkerSettings) : UInt64 :=
  if s.size = 0 then 1 else s.size

/-- How many jobs are admitted at once. -/
def WorkerSettings.capacity (s : WorkerSettings) : Nat :=
  s.workers.toNat + s.queueCapacity.toNat

theorem WorkerSettings.workers_eq {s : WorkerSettings} (h : s.size ≠ 0) : s.workers = s.size :=
  if_neg h

namespace WorkerPool

/-- A pool without jobs. -/
def idle (s : WorkerSettings) : WorkerPool where
  size := s.workers
  overflow := s.overflow
  admission := ⟨s.capacity, [], false⟩
  workers := ⟨s.workers.toNat, [], false⟩
  running := []

/-- A sum that a stock can have is not cut, and one that was cut is too large for a stock. -/
theorem saturatingSum_le_maximum_iff (a b : UInt64) :
    saturatingSum a b ≤ Permits.maximum ↔ a.toNat + b.toNat ≤ Permits.maximum := by
  have hcut : Permits.maximum < UInt64.size - 1 := by decide
  unfold saturatingSum
  omega

theorem saturatingSum_eq {a b : UInt64} (h : a.toNat + b.toNat ≤ Permits.maximum) :
    saturatingSum a b = a.toNat + b.toNat := by
  have hcut : Permits.maximum < UInt64.size - 1 := by decide
  exact Nat.min_eq_left (by omega)

/-- There is a pool as long as a stock can have the permits for admission. -/
theorem ofSettings?_eq (s : WorkerSettings) :
    ofSettings? s = if s.capacity ≤ Permits.maximum then some (idle s) else none := by
  have hsteps : ofSettings? s = (Permits.ofCount? s.workers.toNat).bind fun workers =>
      (Permits.ofCount? (saturatingSum s.workers s.queueCapacity)).bind fun admission =>
        some (WorkerPool.mk s.workers s.overflow admission workers []) := rfl
  by_cases h : s.capacity ≤ Permits.maximum
  · have hfew : s.workers.toNat ≤ Permits.maximum := Nat.le_trans (Nat.le_add_right ..) h
    have hworkers : Permits.ofCount? s.workers.toNat = some (⟨s.workers.toNat, [], false⟩ : Permits Ticket) :=
      if_pos hfew
    have hadmission : Permits.ofCount? (saturatingSum s.workers s.queueCapacity) =
        some (⟨s.capacity, [], false⟩ : Permits Ticket) := by
      rw [saturatingSum_eq h]
      exact if_pos h
    rw [hsteps, hworkers, hadmission, if_pos h]
    rfl
  · have hadmission : Permits.ofCount? (saturatingSum s.workers s.queueCapacity) =
        (none : Option (Permits Ticket)) :=
      if_neg fun hle => h ((saturatingSum_le_maximum_iff ..).mp hle)
    rw [hsteps, hadmission, if_neg h]
    simp only [Option.bind_none, Option.bind_fun_none]

theorem ofSettings?_eq_some_iff {s : WorkerSettings} {p : WorkerPool} :
    ofSettings? s = some p ↔ s.capacity ≤ Permits.maximum ∧ p = idle s := by
  rw [ofSettings?_eq]
  by_cases h : s.capacity ≤ Permits.maximum <;> simp [h, eq_comm]

/-- A server for which there is an address is started if there is a pool for it. -/
theorem start_eq {network : Network} {c : Configuration} {address : ListenAddress} (hvalid : c.validate = .ok ())
    (haddress : ListenAddress.ofText? c.server.bindAddress = some address)
    (hlistens : network.listens address = true) (keys : List KeyPair) :
    Server.start network c keys =
      match ofSettings? c.workers with
      | none => .error .pool
      | some pool => .ok ⟨c, address, pool, .new ⟨c.server.subprotocols, keys⟩, []⟩ := by
  unfold Server.start
  rw [hvalid, haddress]
  exact if_pos hlistens

/-- **There is a pool exactly if its permits are not too many.** A configuration that passes all checks gets a
pool that admits as many jobs as it says, if these are at most `2 ^ 61 - 1`, and else it gets none. So it is
with a server that is to start, and that could listen on its address. -/
theorem created_iff {c : Configuration} (hvalid : c.validate = .ok ()) :
    ((∃ p, ofSettings? c.workers = some p ∧ p.size = c.workers.size ∧
        p.admission.free = min (c.workers.size.toNat + c.workers.queueCapacity.toNat) (2 ^ 64 - 1)) ↔
      c.workers.size.toNat + c.workers.queueCapacity.toNat ≤ 2 ^ 61 - 1) ∧
    ∀ (network : Network) (keys : List KeyPair) (address : ListenAddress),
      ListenAddress.ofText? c.server.bindAddress = some address → network.listens address = true →
        ((∃ s, Server.start network c keys = .ok s) ↔
          c.workers.size.toNat + c.workers.queueCapacity.toNat ≤ 2 ^ 61 - 1) ∧
        (Server.start network c keys = .error .pool ↔
          2 ^ 61 - 1 < c.workers.size.toNat + c.workers.queueCapacity.toNat) := by
  obtain ⟨hsize, -, -⟩ := Configuration.validate_eq_ok_iff.mp hvalid
  have hworkers := WorkerSettings.workers_eq hsize
  have hcapacity : c.workers.capacity = c.workers.size.toNat + c.workers.queueCapacity.toNat := by
    rw [WorkerSettings.capacity, hworkers]
  have hmaximum : Permits.maximum = 2 ^ 61 - 1 := by decide
  rw [← hcapacity, ← hmaximum]
  refine ⟨⟨?_, fun h => ⟨idle c.workers, ofSettings?_eq_some_iff.mpr ⟨h, rfl⟩, hworkers, ?_⟩⟩, ?_⟩
  · rintro ⟨p, hp, -⟩
    exact (ofSettings?_eq_some_iff.mp hp).1
  · show c.workers.capacity = _
    omega
  · intro network keys address haddress hlistens
    rw [start_eq hvalid haddress hlistens, ofSettings?_eq]
    by_cases h : c.workers.capacity ≤ Permits.maximum
    · simp [h]
    · simp [h, Nat.lt_of_not_le h]

theorem address_default : ListenAddress.ofText? "0.0.0.0:8765" = some ⟨.v4 0 0 0 0, 8765⟩ := by
  decide

/-- The defaults get a pool and a server. -/
theorem created_iff_default :
    Configuration.validate {} = .ok () ∧
    ((∃ p, ofSettings? ({} : Configuration).workers = some p ∧ p.size = 8 ∧ p.admission.free = 1032) ∧
    ListenAddress.ofText? "0.0.0.0:8765" = some ⟨.v4 0 0 0 0, 8765⟩ ∧
    Network.loopback.listens ⟨.v4 0 0 0 0, 8765⟩ = true ∧
    ∃ s, Server.start .loopback {} [] = .ok s) := by
  have hvalid := Configuration.validate_default
  have hcreated := created_iff hvalid
  exact ⟨hvalid, hcreated.1.mpr (by decide), address_default, rfl,
    (hcreated.2 .loopback [] _ address_default rfl).1.mpr (by decide)⟩

/-- A configuration that passes all checks and asks for one permit too many gets no pool and no server. -/
theorem oversized_not_created :
    let c : Configuration := { workers := { size := 1, queueCapacity := 2305843009213693951 } }
    c.validate = .ok () ∧ ofSettings? c.workers = none ∧ Server.start .loopback c [] = .error .pool := by
  intro c
  have hvalid : c.validate = .ok () := Configuration.validate_eq_ok_iff.mpr (by decide)
  have hnone : ofSettings? c.workers = none := by decide
  refine ⟨hvalid, hnone, ?_⟩
  rw [start_eq hvalid address_default rfl, hnone]

end WorkerPool

end Rendezvous
