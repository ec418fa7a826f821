import Rendezvous.Proofs.Path.Rotation

/-!
# When an address is given out again

Between two times at which an address is given out, the search for a free address comes to every other
responder address: it starts behind the first time's address, only goes forward along the cycle, and has to
go all the way around. An address that the search comes to is taken or is given out then.

The way around begins when the address is given out, not when it is given up. Who stays for a whole turn of
the cycle leaves an address that the next responder gets.

* **`Slots.Reaches`** — the search for a free address comes to an address.
* **`Slots.reaches_of_add`** — before an address is given out again, the search comes to every other one.
* **`Slots.reuse_run`** — and every other one is taken at some moment.
* **`Slots.reused_at_once`** — that may have been before the address was given up.
-/

namespace Rendezvous

namespace Address

variable {a : Address} {n : Nat}

theorem toNat_iterate_following_pos (h : 0 < a.value.toNat) (n : Nat) :
    0 < (following^[n] a).value.toNat := by
  cases n with
  | zero => exact h
  | succ n =>
    rw [toNat_iterate_following h]
    omega

theorem isResponder_iterate_following (h : 0 < a.value.toNat) (n : Nat) :
    (following^[n + 1] a).isResponder = true := by
  have hnumber := toNat_iterate_following h n
  rw [isResponder, decide_eq_true_eq, UInt8.le_iff_toNat_le, hnumber]
  exact Nat.le_add_right ..

theorem iterate_following_around (ha : a.isResponder = true) (hn : n + 1 = 254) :
    following^[n + 1] a = a := by
  have hvalue := toNat_pos_of_isResponder ha
  have hlt := a.value.toNat_lt
  rw [← toNat_inj, toNat_iterate_following (by omega)]
  omega

/-- Only going all the way around the cycle leads back. -/
theorem le_of_iterate_following_eq (ha : a.isResponder = true) (hn : 0 < n) (h : following^[n] a = a) :
    254 ≤ n := by
  have hvalue := toNat_pos_of_isResponder ha
  have hlt := a.value.toNat_lt
  obtain ⟨m, rfl⟩ := Nat.exists_eq_add_one.mpr hn
  have hnumber := toNat_iterate_following (by omega : 0 < a.value.toNat) m
  rw [h] at hnumber
  omega

end Address

namespace Slots

variable {α : Type u} {s s' : Slots α} {a b c : Address} {occupant : α}

/-! ## The search for a free address -/

/-- The search for a free address comes to an address: all those in front of it are taken. -/
def Reaches (s : Slots α) (a : Address) : Prop :=
  ∃ n < 254, a = Address.following^[n + 1] s.lastAllocated ∧
    ∀ m < n, (s.get (Address.following^[m + 1] s.lastAllocated)).isSome = true

/-- The search ends at the first free address that it comes to. -/
theorem add_of_reaches (hlast : 0 < s.lastAllocated.value.toNat) (hb : b.isResponder = true)
    (h : s.Reaches b) (hfree : s.get b = none) (occupant : α) :
    ∃ s', s.add occupant = .ok (b, s') ∧ ∀ a, s'.get a = if a = b then some occupant else s.get a := by
  obtain ⟨n, hn, rfl, hbefore⟩ := h
  cases hadd : s.add occupant with
  | error e =>
    have htaken := add_eq_error_iff.mp hadd _ hb
    rw [hfree] at htaken
    cases htaken
  | ok result =>
    obtain ⟨c, s'⟩ := result
    obtain ⟨-, hfree', m, hm, rfl, hbefore'⟩ := comesNext_of_add hlast hadd
    have heq : m = n := by
      rcases Nat.lt_trichotomy m n with hlt | heq | hlt
      · have htaken := hbefore m hlt
        rw [hfree'] at htaken
        cases htaken
      · exact heq
      · have htaken := hbefore' n hlt
        rw [hfree] at htaken
        cases htaken
    subst heq
    exact ⟨s', rfl, (add_eq_ok hadd).2.2⟩

/-- The search comes to every address on its way to the one that is given out. Places on the cycle are told by
their distance from `a`. -/
theorem exists_distance_of_add {i : Nat} (ha : 0 < a.value.toNat)
    (hlast : s.lastAllocated = Address.following^[i] a) (h : s.add occupant = .ok (c, s')) :
    ∃ j, i < j ∧ c = Address.following^[j] a ∧
      ∀ d, i < d → d ≤ j → s.Reaches (Address.following^[d] a) := by
  have hpos : 0 < s.lastAllocated.value.toNat := hlast ▸ Address.toNat_iterate_following_pos ha i
  obtain ⟨-, -, n, hn, hcycle, hbefore⟩ := comesNext_of_add hpos h
  refine ⟨n + 1 + i, by omega, ?_, fun d hi hd => ⟨d - i - 1, by omega, ?_, fun m hm => hbefore m (by omega)⟩⟩
  · rw [hcycle, hlast, ← Function.iterate_add_apply]
  · rw [hlast, ← Function.iterate_add_apply]
    congr 1
    omega

/-! ## All the way around -/

/-- **Before an address is given out again, the search comes to every other one.** Here the last address is `i`
places behind `a`, which is less than the `d` places to the address in question. Induction on the operations:
each of them leaves the last address where it is, moves it closer to that address, or passes it. -/
theorem reaches_of_add {i d : Nat} {operations : List (Operation α)} (ha : a.isResponder = true)
    (hlast : s.lastAllocated = Address.following^[i] a) (hi : i < d) (hd : d < 254)
    (h : (s.run operations).add occupant = .ok (a, s')) :
    ∃ before v after, operations ++ [.add occupant] = before ++ .add v :: after ∧
      (s.run before).Reaches (Address.following^[d] a) := by
  have hvalue := Address.toNat_pos_of_isResponder ha
  induction operations generalizing s i with
  | nil =>
    obtain ⟨j, hj, hcycle, hreaches⟩ := exists_distance_of_add (by omega) hlast h
    have haround := Address.le_of_iterate_following_eq ha (by omega) hcycle.symm
    exact ⟨[], occupant, [], rfl, hreaches d hi (by omega)⟩
  | cons op rest ih =>
    cases hgiven : s.given? op with
    | none =>
      have hsame : (s.perform op).lastAllocated = s.lastAllocated := by
        rw [lastAllocated_perform, hgiven, Option.getD_none]
      obtain ⟨before, v, after, heq, hreaches⟩ := ih (hsame.trans hlast) hi h
      exact ⟨op :: before, v, after, congrArg (op :: ·) heq, hreaches⟩
    | some c =>
      obtain ⟨v, s₁, rfl, hadd⟩ := given?_eq_some.mp hgiven
      obtain ⟨j, hj, hcycle, hreaches⟩ := exists_distance_of_add (by omega) hlast hadd
      by_cases hpassed : d ≤ j
      · exact ⟨[], v, rest ++ [.add occupant], rfl, hreaches d hi hpassed⟩
      · have hmoved : (s.perform (.add v)).lastAllocated = Address.following^[j] a := by
          rw [lastAllocated_perform, hgiven, Option.getD_some, hcycle]
        obtain ⟨before, v', after, heq, hreaches⟩ := ih hmoved (by omega) h
        exact ⟨.add v :: before, v', after, congrArg (Operation.add v :: ·) heq, hreaches⟩

/-- Every responder address but one is taken at some moment while some operations are done. -/
def OthersTaken (s : Slots α) (operations : List (Operation α)) (a : Address) : Prop :=
  ∀ b, b.isResponder = true → b ≠ a → ∃ before, before <+: operations ∧ ((s.run before).get b).isSome = true

/-- The search for a free address comes to every responder address but one while some operations are done. -/
def OthersReached (s : Slots α) (operations : List (Operation α)) (a : Address) : Prop :=
  ∀ b, b.isResponder = true → b ≠ a → ∃ before v after,
    operations = before ++ .add v :: after ∧ (s.run before).Reaches b

theorem othersReached_of_add {operations : List (Operation α)} (ha : a.isResponder = true)
    (hlast : s.lastAllocated = a) (h : (s.run operations).add occupant = .ok (a, s')) :
    s.OthersReached (operations ++ [.add occupant]) a := by
  intro b hb hne
  have hvalue := Address.toNat_pos_of_isResponder ha
  have hpos : 0 < a.value.toNat := by omega
  obtain ⟨n, hn, rfl⟩ := exists_iterate_following hpos hb
  refine reaches_of_add (i := 0) ha hlast (Nat.succ_pos n) ?_ h
  -- All the way around there is the address itself.
  have hother : n + 1 ≠ 254 := fun heq => hne (Address.iterate_following_around ha heq)
  omega

/-- An address that the search comes to is taken already, or it is given out. -/
theorem OthersReached.taken {operations : List (Operation α)} (hlast : 0 < s.lastAllocated.value.toNat)
    (h : s.OthersReached operations a) : s.OthersTaken operations a := by
  intro b hb hne
  obtain ⟨before, v, after, rfl, hreaches⟩ := h b hb hne
  cases hfree : (s.run before).get b with
  | some holder => exact ⟨before, List.prefix_append .., by rw [hfree]; rfl⟩
  | none =>
    obtain ⟨s₁, hadd, hget⟩ := add_of_reaches (toNat_lastAllocated_pos hlast before) hb hreaches hfree v
    have hrun : s.run (before ++ [.add v]) = s₁ := (run_concat ..).trans (perform_of_ok hadd)
    refine ⟨before ++ [.add v], ⟨after, by rw [List.append_assoc]; rfl⟩, ?_⟩
    rw [hrun, hget, if_pos rfl]
    rfl

/-! ## Arrival and departure -/

/-- **An address is given out again after all others.** Where a responder address is given out twice, whatever
is done with the addresses before and between, the search for a free address comes to every other responder
address on its way from the first time to the second, so the whole cycle has been gone around, and every
other responder address is taken at some moment from the first time to the second. -/
theorem reuse_run {before between : List (Operation α)} {first second : α}
    (hfirst : (empty.run before).add first = .ok (a, s))
    (hagain : (s.run between).add second = .ok (a, s')) :
    s.OthersReached (between ++ [.add second]) a ∧ s.OthersTaken (between ++ [.add second]) a := by
  have ha := (Address.isResponder_iff a).mpr (add_eq_ok hfirst).1
  have hlast := lastAllocated_of_add hfirst
  have hpos : 0 < s.lastAllocated.value.toNat := by
    rw [hlast]
    exact Nat.lt_of_lt_of_le Nat.zero_lt_two (Address.toNat_pos_of_isResponder ha)
  have hreached := othersReached_of_add ha hlast hagain
  exact ⟨hreached, hreached.taken hpos⟩

/-- Visitors come and go, one after the other, while someone has the address `0x02`. -/
def visits (count : Nat) : List (Operation Nat) :=
  (List.range count).flatMap fun n => [.add 1, .del (Address.following^[n + 1] ⟨0x02⟩)]

/-- Only the address `0x02` is taken, by the one who came first. -/
def Alone (s : Slots Nat) : Prop :=
  ∀ a, s.get a = if a = ⟨0x02⟩ then some 0 else none

theorem exists_alone : ∃ s, (empty : Slots Nat).add 0 = .ok (⟨0x02⟩, s) ∧ s.Alone := by
  have hreaches : (empty : Slots Nat).Reaches (Address.following^[0 + 1] .initiator) :=
    ⟨0, by decide, rfl, nofun⟩
  obtain ⟨s, hadd, hget⟩ := add_of_reaches (by decide) (by decide) hreaches (get_empty _) 0
  refine ⟨s, hadd, fun a => ?_⟩
  rw [hget, get_empty]
  rfl

/-- Each visitor gets the next address of the cycle and gives it up again. -/
theorem Alone.run_visits {s : Slots Nat} (h : s.Alone) (hlast : s.lastAllocated = ⟨0x02⟩) {count : Nat}
    (hcount : count < 254) : (s.run (visits count)).Alone ∧
      (s.run (visits count)).lastAllocated = Address.following^[count] ⟨0x02⟩ := by
  induction count with
  | zero => exact ⟨h, hlast⟩
  | succ n ih =>
    obtain ⟨halone, hlast'⟩ := ih (by omega)
    have hrun : s.run (visits (n + 1)) = ((s.run (visits n)).perform (.add 1)).perform
        (.del (Address.following^[n + 1] ⟨0x02⟩)) := by
      simp [visits, run, List.range_succ]
    generalize s.run (visits n) = r at halone hlast' hrun
    have hother : Address.following^[n + 1] ⟨0x02⟩ ≠ (⟨0x02⟩ : Address) := by
      intro heq
      have := Address.le_of_iterate_following_eq (by decide) (Nat.succ_pos n) heq
      omega
    have hreaches : r.Reaches (Address.following^[n + 1] ⟨0x02⟩) :=
      ⟨0, by decide, by rw [hlast', ← Function.iterate_add_apply, Nat.add_comm], nofun⟩
    obtain ⟨r', hadd, hget⟩ := add_of_reaches (hlast' ▸ Address.toNat_iterate_following_pos (by decide) n)
      (Address.isResponder_iterate_following (by decide) n) hreaches (by rw [halone, if_neg hother]) 1
    rw [hrun, perform_of_ok hadd]
    have hafter : r'.lastAllocated = Address.following^[n + 1] ⟨0x02⟩ := lastAllocated_of_add hadd
    refine ⟨fun a => ?_, hafter⟩
    show (r'.set _ none).get a = _
    rw [get_set, hget, halone]
    split
    · next heq => rw [heq, if_neg hother]
    · rfl

/-- An address that is next on the cycle is given out again as soon as it is given up. -/
theorem add_of_departed (ha : a.isResponder = true) (hnext : s.lastAllocated.following = a) (occupant : α) :
    ∃ s', (s.perform (.del a)).add occupant = .ok (a, s') := by
  have hpos : 0 < s.lastAllocated.value.toNat := by
    have hvalue := Address.toNat_pos_of_isResponder ha
    rw [← hnext, Address.toNat_following] at hvalue
    split at hvalue <;> omega
  have hreaches : (s.set a none).Reaches a := ⟨0, by decide, hnext.symm, nofun⟩
  obtain ⟨s', hadd, -⟩ := add_of_reaches (s := s.set a none) hpos ha hreaches (get_set_self ..) occupant
  exact ⟨s', hadd⟩

/-- One responder stays for a whole turn of the cycle. -/
def turn : List (Operation Nat) :=
  .add 0 :: visits 253

/-- After that turn only the first responder has an address, and it is the next one to be given out. -/
theorem run_turn : ((empty : Slots Nat).run turn).Alone ∧
    ((empty : Slots Nat).run turn).lastAllocated = Address.following^[253] ⟨0x02⟩ := by
  obtain ⟨s, hadd, halone⟩ := exists_alone
  rw [turn, run_cons, perform_of_ok hadd]
  exact halone.run_visits (lastAllocated_of_add hadd) (by decide)

theorem add_after_turn :
    ∃ s', ((empty : Slots Nat).run (turn ++ [.del ⟨0x02⟩])).add 2 = .ok (⟨0x02⟩, s') := by
  have hnext : Address.following (Address.following^[253] ⟨0x02⟩) = ⟨0x02⟩ := by
    rw [← Function.iterate_succ_apply' Address.following]
    exact Address.iterate_following_around rfl rfl
  rw [run_concat]
  exact add_of_departed rfl (run_turn.2 ▸ hnext) 2

theorem reuse_run_turn : ∃ s s' : Slots Nat,
    (empty.run []).add 0 = .ok (⟨0x02⟩, s) ∧
    (s.run (visits 253 ++ [.del ⟨0x02⟩])).add 2 = .ok (⟨0x02⟩, s') ∧
    s.OthersReached (visits 253 ++ [.del ⟨0x02⟩] ++ [.add 2]) ⟨0x02⟩ ∧
    s.OthersTaken (visits 253 ++ [.del ⟨0x02⟩] ++ [.add 2]) ⟨0x02⟩ := by
  obtain ⟨s, hfirst, -⟩ := exists_alone
  obtain ⟨s', hagain⟩ := add_after_turn
  rw [turn, List.cons_append, run_cons, perform_of_ok hfirst] at hagain
  have hstart : ((empty : Slots Nat).run []).add 0 = .ok (⟨0x02⟩, s) := hfirst
  exact ⟨s, s', hstart, hagain, reuse_run hstart hagain⟩

/-- **An address may be given out again as soon as it is given up.** Who stays for a whole turn of the cycle
leaves the address that is next. From its departure until the address has the next holder no other address is
taken, and the search comes to none. -/
theorem reused_at_once :
    ((empty : Slots Nat).run turn).get ⟨0x02⟩ = some 0 ∧
    (∃ s', ((empty : Slots Nat).run (turn ++ [.del ⟨0x02⟩])).add 2 = .ok (⟨0x02⟩, s')) ∧
    ¬ ((empty : Slots Nat).run (turn ++ [.del ⟨0x02⟩])).OthersTaken [.add 2] ⟨0x02⟩ ∧
    ¬ ((empty : Slots Nat).run (turn ++ [.del ⟨0x02⟩])).OthersReached [.add 2] ⟨0x02⟩ := by
  obtain ⟨halone, -⟩ := run_turn
  obtain ⟨s', hadd⟩ := add_after_turn
  have hdeparted : ((empty : Slots Nat).run (turn ++ [.del ⟨0x02⟩])).get ⟨0x03⟩ = none := by
    rw [run_concat]
    show (Slots.set _ _ none).get ⟨0x03⟩ = none
    rw [get_set_ne _ _ (by decide), halone, if_neg (by decide)]
  have htaken : ¬ ((empty : Slots Nat).run (turn ++ [.del ⟨0x02⟩])).OthersTaken [.add 2] ⟨0x02⟩ := by
    intro htaken
    -- There are two moments, that of the departure and that of the arrival.
    obtain ⟨before, hbefore, hsome⟩ := htaken ⟨0x03⟩ rfl (by decide)
    rcases List.prefix_cons_iff.mp hbefore with rfl | ⟨rest, rfl, hrest⟩
    · rw [run, List.foldl_nil, hdeparted] at hsome
      cases hsome
    · obtain rfl := List.prefix_nil.mp hrest
      rw [run_cons, perform_of_ok hadd, run, List.foldl_nil, (add_eq_ok hadd).2.2, if_neg (by decide),
        hdeparted] at hsome
      cases hsome
  exact ⟨by rw [halone, if_pos rfl], ⟨s', hadd⟩, htaken,
    fun hreached => htaken (hreached.taken (toNat_lastAllocated_pos (by decide) _))⟩

end Slots

end Rendezvous
