import Mathlib.Data.List.Induction
import Rendezvous.Proofs.Path.Registry

/-!
# The paths of a key succeed one another

For those who ask for paths, a registry is a map from keys to paths: a key keeps its path until that one is
pruned, and gets a new one then. The map is known from what was handed out and what was pruned alone, and so
are the marks of the paths and the number of those that were created.

Every step is followed through what it does to a path that is known already (`path?_perform`), and to the path
that is registered under a key (`lookup_perform`).

* **`Registry.current?`** — the path of a key, according to the history.
* **`Registry.Records`** — a registry that is as its history says.
* **`Registry.records_run`** — that holds after every sequence of operations.
* **`Registry.Sound.pruneInSteps_eq`**, **`Registry.Sound.getOrReplace_eq`** — a mark that is set for a moment
  makes no difference, and no path that bears one is ever found.
* **`Registry.Follows`** — who gets which path, what is found, and what is pruned, in words of the history.
* **`Registry.registry_run`** — the registry goes by that.
-/

namespace Rendezvous

namespace Registry

variable {α : Type u} {r : Registry α} {id other : PathId} {p q : Path α} {key : PublicKey}

/-! ## Sequences of operations -/

/-- Something that is done with a registry, or with the paths that are known. -/
inductive Operation (α : Type u) where
  | getOrCreate (key : PublicKey)
  | find (hex : String)
  | prune (id : PathId)
  /-- Holds a new path without registering it. -/
  | hold (key : PublicKey) (number : Nat)
  /-- Changes who is on a path. -/
  | setSlots (id : PathId) (slots : Slots α)

/-- A registry after an operation. -/
def perform (r : Registry α) : Operation α → Registry α
  | .getOrCreate key => (r.getOrCreate key).2
  | .find _ => r
  | .prune id => (r.prune id).2
  | .hold key number => (r.hold (.new key number)).2
  | .setSlots id slots => r.setSlots id slots

/-- A registry after some operations, in their order. -/
def run (r : Registry α) (operations : List (Operation α)) : Registry α :=
  operations.foldl perform r

/-- What is remembered of an operation. -/
inductive Event where
  | handedOut (key : PublicKey) (id : PathId)
  | pruned (id : PathId)
  deriving DecidableEq

def event? (r : Registry α) : Operation α → Option Event
  | .getOrCreate key => some (.handedOut key (r.getOrCreate key).1)
  | .prune id => if (r.prune id).1 then some (.pruned id) else none
  | _ => none

/-- What is remembered of some operations. -/
def history (r : Registry α) : List (Operation α) → List Event
  | [] => []
  | op :: rest => (r.event? op).toList ++ (r.perform op).history rest

/-! ## What a history says -/

/-- The path of a key after an event. -/
def Event.follow (key : PublicKey) (current : Option PathId) : Event → Option PathId
  | .handedOut key' id => if key' = key then some id else current
  | .pruned id => if current = some id then none else current

/-- The path that was last handed out for a key, unless it was pruned since. -/
def current? (key : PublicKey) (history : List Event) : Option PathId :=
  history.foldl (Event.follow key) none

def Event.handedOut? : Event → Option PathId
  | .handedOut _ id => some id
  | .pruned _ => none

/-- The paths that were handed out, in the order in which they were handed out first. -/
def createdPaths (history : List Event) : List PathId :=
  (history.filterMap Event.handedOut?).eraseDups

theorem current?_append (key : PublicKey) (history events : List Event) :
    current? key (history ++ events) = events.foldl (Event.follow key) (current? key history) :=
  List.foldl_append

theorem mem_of_current? {history : List Event} (h : current? key history = some id) :
    .handedOut key id ∈ history := by
  induction history using List.reverseRecOn with
  | nil => cases h
  | append_singleton history event ih =>
    -- The last event gave the key its path, or it left the key the path that it had.
    rw [current?_append, List.foldl_cons, List.foldl_nil] at h
    cases event with
    | handedOut key' id' =>
      simp only [Event.follow] at h
      split at h
      · next heq =>
        cases h
        rw [heq]
        exact List.mem_append_right _ List.mem_cons_self
      · exact List.mem_append_left _ (ih h)
    | pruned id' =>
      simp only [Event.follow] at h
      split at h
      · cases h
      · exact List.mem_append_left _ (ih h)

theorem mem_createdPaths {history : List Event} :
    id ∈ createdPaths history ↔ ∃ key, .handedOut key id ∈ history := by
  rw [createdPaths, List.mem_eraseDups, List.mem_filterMap]
  constructor
  · rintro ⟨event, hevent, hid⟩
    cases event with
    | handedOut key id' =>
      cases hid
      exact ⟨key, hevent⟩
    | pruned id' => cases hid
  · rintro ⟨key, hevent⟩
    exact ⟨_, hevent, rfl⟩

/-- A path is created when it is handed out for the first time. -/
theorem createdPaths_concat (history : List Event) (key : PublicKey) (id : PathId) :
    createdPaths (history ++ [.handedOut key id]) =
      if id ∈ createdPaths history then createdPaths history else createdPaths history ++ [id] := by
  have hlast : [Event.handedOut key id].filterMap Event.handedOut? = [id] := rfl
  simp only [createdPaths, List.filterMap_append, List.eraseDups_append, hlast, List.mem_eraseDups]
  generalize history.filterMap Event.handedOut? = ids
  by_cases hmem : id ∈ ids <;> simp [List.removeAll, List.eraseDups_cons, hmem]

theorem createdPaths_pruned (history : List Event) (id : PathId) :
    createdPaths (history ++ [.pruned id]) = createdPaths history := by
  have hlast : [Event.pruned id].filterMap Event.handedOut? = [] := rfl
  rw [createdPaths, List.filterMap_append, hlast, List.append_nil, createdPaths]

/-! ## What a step does -/

/-- The next path will have a new name. -/
theorem path?_size (r : Registry α) : r.path? ⟨r.paths.size⟩ = none := by
  simp [path?]

/-- A path that is held without being registered is new. -/
theorem path?_hold_eq_some : (r.hold p).2.path? id = some q ↔
    r.path? id = some q ∨ (id = ⟨r.paths.size⟩ ∧ q = p) := by
  cases id
  simp only [hold, path?, Array.getElem?_push, PathId.mk.injEq]
  split
  · next hi => simp [hi, eq_comm]
  · next hi => simp [hi]

theorem fst_prune (r : Registry α) (id : PathId) : (r.prune id).1 = r.isPrunable id := by
  unfold prune
  split <;> simp_all

theorem event?_prune (r : Registry α) (id : PathId) :
    r.event? (.prune id) = if r.isPrunable id = true then some (.pruned id) else none := by
  rw [event?, fst_prune]

theorem event?_prune_eq_some {id' : PathId} :
    r.event? (.prune id') = some (.pruned id) ↔ r.isPrunable id' = true ∧ id' = id := by
  rw [event?_prune]
  split <;> simp_all

/-- A path that is known stays known, under its key and its number. Only pruning it sets its mark, and nothing
takes the mark back. -/
theorem path?_perform (h : r.path? id = some p) (op : Operation α) :
    ∃ q, (r.perform op).path? id = some q ∧ q.key = p.key ∧ q.number = p.number ∧
      (q.orphan = true ↔ p.orphan = true ∨ r.event? op = some (.pruned id)) := by
  cases op with
  | getOrCreate key => exact ⟨p, path?_getOrCreate.mpr (.inl h), rfl, rfl, by simp [event?]⟩
  | find hex => exact ⟨p, h, rfl, rfl, by simp [event?]⟩
  | hold key number =>
    exact ⟨p, (path?_hold (by rw [h]; rfl)).trans h, rfl, rfl, by simp [event?]⟩
  | setSlots id' slots =>
    refine ⟨if id' = id then { p with slots } else p, ?_, ?_⟩
    · rw [perform, path?_setSlots, h]
      split <;> rfl
    · split <;> simp [event?]
  | prune id' =>
    refine ⟨if r.isPrunable id' = true ∧ id' = id then { p with orphan := true } else p, ?_, ?_⟩
    · rw [perform, path?_prune_eq, h]
      split <;> rfl
    · rw [event?_prune_eq_some]
      split
      · next hpruned => exact ⟨rfl, rfl, iff_of_true rfl (.inr hpruned)⟩
      · next hnot => exact ⟨rfl, rfl, (or_iff_left hnot).symm⟩

/-- A path that becomes known bears no mark. -/
theorem orphan_of_perform (h : r.path? id = none) {op : Operation α}
    (hq : (r.perform op).path? id = some q) : q.orphan = false := by
  cases op with
  | getOrCreate key =>
    rcases path?_getOrCreate.mp hq with hold | ⟨-, -, rfl⟩
    · cases h.symm.trans hold
    · rfl
  | find hex => cases h.symm.trans hq
  | hold key number =>
    rcases path?_hold_eq_some.mp hq with hold | ⟨-, rfl⟩
    · cases h.symm.trans hold
    · rfl
  | setSlots id' slots =>
    rw [perform, path?_setSlots, h] at hq
    split at hq <;> cases hq
  | prune id' =>
    rw [perform, path?_prune_eq, h] at hq
    split at hq <;> cases hq

theorem Sound.hold (h : r.Sound) (p : Path α) : (r.hold p).2.Sound := by
  refine ⟨h.keys, fun key id hmem => ?_⟩
  obtain ⟨q, hq, hkey, ho⟩ := h.registered key id hmem
  exact ⟨q, (path?_hold (by rw [hq]; rfl)).trans hq, hkey, ho⟩

theorem Sound.perform (h : r.Sound) (op : Operation α) : (r.perform op).Sound := by
  cases op with
  | getOrCreate key => exact h.getOrCreate key
  | find hex => exact h
  | prune id => exact h.prune id
  | hold key number => exact h.hold _
  | setSlots id slots => exact h.setSlots id slots

/-- The path that is registered under a key changes as the history says. -/
theorem lookup_perform (h : r.Sound) (op : Operation α) (key : PublicKey) :
    (r.perform op).live.lookup key = (r.event? op).toList.foldl (Event.follow key) (r.live.lookup key) := by
  cases op with
  | getOrCreate key' =>
    show (r.getOrCreate key').2.live.lookup key = if key' = key then some (r.getOrCreate key').1 else _
    rcases getOrCreate_cases r key' with ⟨id, hid, heq⟩ | ⟨hnone, heq⟩
    · -- The registry is the same, and the history repeats what it said before.
      rw [heq]
      split
      · next hkey => rw [← hkey, hid]
      · rfl
    · rw [heq, List.lookup_cons]
      by_cases hkey : key' = key
      · simp [hkey]
      · rw [beq_false_of_ne (Ne.symm hkey), if_neg hkey]
  | prune id =>
    show (r.prune id).2.live.lookup key = _
    rw [lookup_prune h, event?_prune]
    split <;> split <;> simp_all [Event.follow]
  | _ => rfl

/-- What is not known is not pruned. -/
theorem path?_of_event?_pruned {op : Operation α} (h : r.event? op = some (.pruned id)) :
    ∃ p, r.path? id = some p := by
  cases op with
  | prune id' =>
    obtain ⟨hprunable, rfl⟩ := event?_prune_eq_some.mp h
    obtain ⟨p, hp, -, -⟩ := isPrunable_iff.mp hprunable
    exact ⟨p, hp⟩
  | _ => cases h

/-- What is handed out is a path of the key, and one that was not taken out. -/
theorem Sound.path_of_handedOut (h : r.Sound) {op : Operation α}
    (hevent : r.event? op = some (.handedOut key id)) :
    ∃ p, (r.perform op).path? id = some p ∧ p.key = key ∧ p.orphan = false := by
  cases op with
  | getOrCreate key' =>
    cases hevent
    exact (h.getOrCreate key).path_of_lookup (lookup_getOrCreate r key)
  | prune id' =>
    rw [event?_prune] at hevent
    split at hevent <;> cases hevent
  | _ => cases hevent

/-! ## What the history says is so -/

/-- A registry that is as its history says. The paths that were created are counted by the registry, and what
was said of a path was said of one that is known, so a new path was never spoken of. -/
structure Records (r : Registry α) (history : List Event) : Prop where
  sound : r.Sound
  /-- Every key has its path. -/
  lookup : ∀ key, r.live.lookup key = current? key history
  /-- A path bears a mark exactly if it was pruned. -/
  orphan : ∀ id p, r.path? id = some p → (p.orphan = true ↔ .pruned id ∈ history)
  /-- What was handed out or pruned is known. -/
  known : ∀ id, (∃ key, .handedOut key id ∈ history) ∨ .pruned id ∈ history → (r.path? id).isSome = true
  /-- The paths that were created have the numbers from one on. -/
  numbers : ∀ i id, (createdPaths history)[i]? = some id → ∃ p, r.path? id = some p ∧ p.number = i + 1
  created : r.created = (createdPaths history).length

theorem records_empty : (empty : Registry α).Records [] := by
  refine ⟨sound_empty, fun key => rfl, ?_, ?_, ?_, rfl⟩
  · intro id p h
    simp [empty, path?] at h
  · simp
  · intro i id h
    simp [createdPaths] at h

theorem Records.not_handedOut {history : List Event} (h : r.Records history) (hnew : r.path? id = none)
    (key : PublicKey) : .handedOut key id ∉ history := fun hmem => by
  have hknown := h.known id (.inl ⟨key, hmem⟩)
  rw [hnew] at hknown
  cases hknown

/-- A step creates no path, or it creates one that has the next number. -/
theorem Records.created_perform {history : List Event} (h : r.Records history) (op : Operation α) :
    (createdPaths (history ++ (r.event? op).toList) = createdPaths history ∧
      (r.perform op).created = r.created) ∨
    ∃ id p, createdPaths (history ++ (r.event? op).toList) = createdPaths history ++ [id] ∧
      (r.perform op).created = r.created + 1 ∧
      (r.perform op).path? id = some p ∧ p.number = r.created + 1 := by
  cases op with
  | getOrCreate key =>
    simp only [event?, Registry.perform, Option.toList_some, createdPaths_concat]
    rcases getOrCreate_cases r key with ⟨id, hid, heq⟩ | ⟨hnone, heq⟩
    · -- The path of the key was handed out before, so nothing is created.
      have hhanded := mem_of_current? ((h.lookup key).symm.trans hid)
      rw [heq, if_pos (mem_createdPaths.mpr ⟨key, hhanded⟩)]
      exact .inl ⟨rfl, rfl⟩
    · have hnot : ⟨r.paths.size⟩ ∉ createdPaths history := fun hmem => by
        obtain ⟨key', hhanded⟩ := mem_createdPaths.mp hmem
        exact h.not_handedOut (path?_size r) key' hhanded
      rw [heq, if_neg hnot]
      exact .inr ⟨_, _, rfl, rfl, path?_hold_self .., rfl⟩
  | prune id =>
    refine .inl ⟨?_, ?_⟩
    · rw [event?_prune]
      split
      · exact createdPaths_pruned history id
      · rw [Option.toList_none, List.append_nil]
    · show (r.prune id).2.created = r.created
      unfold prune
      split <;> rfl
  | _ => exact .inl ⟨congrArg createdPaths (List.append_nil history), rfl⟩

theorem Records.known_perform {history : List Event} (h : r.Records history) (op : Operation α) (id : PathId)
    (hid : (∃ key, .handedOut key id ∈ history ++ (r.event? op).toList) ∨
      .pruned id ∈ history ++ (r.event? op).toList) :
    ((r.perform op).path? id).isSome = true := by
  have hkept : (r.path? id).isSome = true → ((r.perform op).path? id).isSome = true := fun hold => by
    obtain ⟨p, hp⟩ := Option.isSome_iff_exists.mp hold
    obtain ⟨q, hq, -⟩ := path?_perform hp op
    exact Option.isSome_iff_exists.mpr ⟨q, hq⟩
  simp only [List.mem_append, Option.mem_toList] at hid
  rcases hid with ⟨key, hold | hnew⟩ | hold | hnew
  · exact hkept (h.known id (.inl ⟨key, hold⟩))
  · obtain ⟨p, hp, -⟩ := h.sound.path_of_handedOut hnew
    exact Option.isSome_iff_exists.mpr ⟨p, hp⟩
  · exact hkept (h.known id (.inr hold))
  · exact hkept (Option.isSome_iff_exists.mpr (path?_of_event?_pruned hnew))

theorem Records.orphan_perform {history : List Event} (h : r.Records history) (op : Operation α)
    (hq : (r.perform op).path? id = some q) :
    q.orphan = true ↔ .pruned id ∈ history ++ (r.event? op).toList := by
  rw [List.mem_append, Option.mem_toList]
  cases hp : r.path? id with
  | some p =>
    obtain ⟨q', hq', -, -, hmark⟩ := path?_perform hp op
    cases hq'.symm.trans hq
    rw [hmark, h.orphan id p hp]
  | none =>
    -- The path is new, so nothing was said of it before, and it cannot be pruned by the step that creates it.
    rw [orphan_of_perform hp hq]
    refine iff_of_false Bool.false_ne_true ?_
    rintro (hold | hnew)
    · have hknown := h.known id (.inr hold)
      rw [hp] at hknown
      cases hknown
    · obtain ⟨p, hp'⟩ := path?_of_event?_pruned hnew
      cases hp.symm.trans hp'

/-- A path keeps its number, and one that is created gets the next. -/
theorem Records.numbers_perform {history : List Event} (h : r.Records history) (op : Operation α) (i : Nat)
    (hi : (createdPaths (history ++ (r.event? op).toList))[i]? = some id) :
    ∃ q, (r.perform op).path? id = some q ∧ q.number = i + 1 := by
  have hkept : (createdPaths history)[i]? = some id →
      ∃ q, (r.perform op).path? id = some q ∧ q.number = i + 1 := fun hold => by
    obtain ⟨p, hp, hnumber⟩ := h.numbers i id hold
    obtain ⟨q, hq, -, hsame, -⟩ := path?_perform hp op
    exact ⟨q, hq, hsame.trans hnumber⟩
  rcases h.created_perform op with ⟨hsame, -⟩ | ⟨new, p, hnew, -, hp, hnumber⟩
  · exact hkept (hsame ▸ hi)
  · rw [hnew, List.getElem?_append] at hi
    split at hi
    · exact hkept hi
    · obtain ⟨hlast, rfl⟩ : i - (createdPaths history).length = 0 ∧ new = id := by
        simpa [List.getElem?_singleton] using hi
      refine ⟨p, hp, ?_⟩
      rw [hnumber, h.created]
      omega

theorem Records.perform {history : List Event} (h : r.Records history) (op : Operation α) :
    (r.perform op).Records (history ++ (r.event? op).toList) where
  sound := h.sound.perform op
  lookup key := by rw [lookup_perform h.sound, h.lookup, current?_append]
  orphan id q hq := h.orphan_perform op hq
  known := h.known_perform op
  numbers i id hi := h.numbers_perform op i hi
  created := by
    rcases h.created_perform op with ⟨hsame, hcreated⟩ | ⟨id, p, hnew, hcreated, -, -⟩
    · rw [hcreated, hsame, h.created]
    · rw [hcreated, hnew, h.created, List.length_append, List.length_singleton]

/-- What the history says is so after every sequence of operations. -/
theorem records_run {history : List Event} (h : r.Records history) (operations : List (Operation α)) :
    (r.run operations).Records (history ++ r.history operations) := by
  induction operations generalizing r history with
  | nil => simpa [run, Registry.history] using h
  | cons op rest ih =>
    have hrest := ih (h.perform op)
    rwa [List.append_assoc] at hrest

/-- What was taken out stays so, and it is not handed out again. -/
theorem Sound.orphan_run (h : r.Sound) (hp : r.path? id = some p) (ho : p.orphan = true)
    (operations : List (Operation α)) :
    (∃ q, (r.run operations).path? id = some q ∧ q.orphan = true) ∧
      ∀ key, .handedOut key id ∉ r.history operations := by
  induction operations generalizing r p with
  | nil => exact ⟨⟨p, hp, ho⟩, fun key => List.not_mem_nil⟩
  | cons op rest ih =>
    obtain ⟨q, hq, -, -, hmark⟩ := path?_perform hp op
    have hqo : q.orphan = true := hmark.mpr (.inl ho)
    obtain ⟨hrun, hrest⟩ := ih (h.perform op) hq hqo
    refine ⟨hrun, fun key hmem => ?_⟩
    rcases List.mem_append.mp hmem with hevent | hlater
    · -- What was just handed out bears no mark.
      obtain ⟨q', hq', -, hfree⟩ := h.path_of_handedOut (Option.mem_toList.mp hevent)
      cases hq'.symm.trans hq
      cases hqo.symm.trans hfree
    · exact hrest key hlater

/-! ## Marks that are set for a moment -/

/-- Sets the mark of a path or takes it back. -/
def mark (r : Registry α) (id : PathId) (orphan : Bool) : Registry α :=
  r.modify id fun p => { p with orphan }

/-- Prunes a path in steps. A path that is registered gets its mark before it is asked who is on it, and if
anyone is, the mark is taken back. -/
def pruneInSteps (r : Registry α) (id : PathId) : Bool × Registry α :=
  match r.path? id with
  | none => (false, r)
  | some p =>
    if r.live.lookup p.key = some id then
      let marked := r.mark id true
      if (marked.path? id).all Path.isEmpty then
        (true, { marked with live := marked.live.filter fun (key, _) => key ≠ p.key })
      else (false, marked.mark id false)
    else (false, r)

/-- Hands out the path that is registered under a key, or a new one in the place of one that bears a mark. -/
def getOrReplace (r : Registry α) (key : PublicKey) : PathId × Registry α :=
  match r.live.lookup key with
  | some id =>
    if (r.path? id).any Path.orphan then
      { r with live := r.live.filter fun (other, _) => other ≠ key }.getOrCreate key
    else (id, r)
  | none => r.getOrCreate key

/-- A registered path has one entry, the one under its key. -/
theorem Sound.filter_key (h : r.Sound) (hp : r.path? id = some p) (hlookup : r.live.lookup p.key = some id) :
    (r.live.filter fun (key, _) => key ≠ p.key) = r.live.filter fun (_, other) => other ≠ id := by
  apply List.filter_congr
  rintro ⟨key, other⟩ hmem
  have hiff : key = p.key ↔ other = id := by
    constructor
    · rintro rfl
      exact Option.some.inj (((lookup_eq_some_iff h).mpr hmem).symm.trans hlookup)
    · rintro rfl
      obtain ⟨q, hq, hkey, -⟩ := h.registered key other hmem
      cases hq.symm.trans hp
      exact hkey.symm
  simp [hiff]

/-- A mark that is set before the outcome is known makes no difference. -/
theorem Sound.pruneInSteps_eq (h : r.Sound) (id : PathId) : r.pruneInSteps id = r.prune id := by
  unfold pruneInSteps Registry.prune isPrunable
  cases hp : r.path? id with
  | none => rfl
  | some p =>
    by_cases hlookup : r.live.lookup p.key = some id
    · -- The mark does not change who is on the path.
      have hasked : ((r.mark id true).path? id).all Path.isEmpty = p.isEmpty := by
        rw [mark, path?_modify, if_pos rfl, hp]
        rfl
      -- A registered path bore no mark before, so taking it back restores the path.
      have hback : (r.mark id true).mark id false = r := by
        rw [mark, mark, modify_modify]
        apply modify_eq_self
        intro q hq
        obtain ⟨p', hp', -, ho⟩ := h.path_of_lookup hlookup
        cases hp'.symm.trans hq
        rw [Function.comp_apply, ← ho]
      simp only [hlookup, hasked, if_true, beq_self_eq_true, Bool.true_and]
      cases p.isEmpty with
      | true =>
        rw [if_pos rfl, if_pos rfl, ← h.filter_key hp hlookup]
        rfl
      | false => rw [if_neg Bool.false_ne_true, if_neg Bool.false_ne_true, hback]
    · simp [hlookup]

/-- A path that is found bears no mark, so none is ever replaced. -/
theorem Sound.getOrReplace_eq (h : r.Sound) (key : PublicKey) : r.getOrReplace key = r.getOrCreate key := by
  unfold getOrReplace
  rcases getOrCreate_cases r key with ⟨id, hid, heq⟩ | ⟨hnone, -⟩
  · obtain ⟨p, hp, -, ho⟩ := h.path_of_lookup hid
    simp [hid, hp, ho, heq]
  · rw [hnone]

/-! ## The registry as a map -/

/-- A text finds the path that is registered under the key whose digits it is. -/
theorem find?_eq_some_iff {text : String} :
    r.find? text = some id ↔ ∃ key, text = key.hex ∧ r.live.lookup key = some id := by
  constructor
  · intro h
    obtain ⟨⟨key, other⟩, hfind, -⟩ := Option.map_eq_some_iff.mp h
    have hkey : text = key.hex := by
      have hpassed := List.find?_some hfind
      exact (beq_iff_eq.mp hpassed).symm
    exact ⟨key, hkey, by rw [← find?_hex, ← hkey, h]⟩
  · rintro ⟨key, rfl, h⟩
    rw [find?_hex, h]

/-- A registry that is the map from keys to paths that its history tells of. -/
structure Follows (r : Registry α) (history : List Event) : Prop where
  /-- A key keeps its path until that one is pruned. -/
  kept : ∀ key id, current? key history = some id → r.getOrCreate key = (id, r)
  /-- Then it gets a new path, with no one on it. -/
  fresh : ∀ key, current? key history = none →
    (∀ other, .handedOut other (r.getOrCreate key).1 ∉ history) ∧
    r.path? (r.getOrCreate key).1 = none ∧
    (r.getOrCreate key).2.path? (r.getOrCreate key).1 =
      some { key, number := (createdPaths history).length + 1, slots := .empty, orphan := false }
  /-- The paths are numbered as they were created. -/
  numbers : ∀ i id, (createdPaths history)[i]? = some id → ∃ p, r.path? id = some p ∧ p.number = i + 1
  /-- A path is pruned if it is the one of its key and no one is on it. -/
  prunes : ∀ id, (r.prune id).1 = true ↔
    ∃ p, r.path? id = some p ∧ current? p.key history = some id ∧ ∀ a, p.slots.get a = none
  /-- Then only that path is not found any more, and it bears its mark for good. -/
  pruned : ∀ id, (r.prune id).1 = true →
    (∀ text, (r.prune id).2.find? text = if r.find? text = some id then none else r.find? text) ∧
    (∀ other, other ≠ id → (r.prune id).2.path? other = r.path? other) ∧
    ∀ operations, (∃ p, ((r.prune id).2.run operations).path? id = some p ∧ p.orphan = true) ∧
      ∀ key, .handedOut key id ∉ (r.prune id).2.history operations
  /-- Otherwise nothing changes. -/
  spared : ∀ id, (r.prune id).1 = false → (r.prune id).2 = r
  /-- A path is found by the digits of its key. -/
  found : ∀ text id, r.find? text = some id ↔ ∃ key, text = key.hex ∧ current? key history = some id
  /-- A path that was created bears a mark exactly if it was pruned. -/
  orphan : ∀ id ∈ createdPaths history,
    ∃ p, r.path? id = some p ∧ (p.orphan = true ↔ .pruned id ∈ history)
  /-- It makes no difference that the mark is set before it is asked who is on the path. -/
  inSteps : ∀ id, r.pruneInSteps id = r.prune id
  /-- There is never a path with a mark to be replaced. -/
  replaced : ∀ key, r.getOrReplace key = r.getOrCreate key

theorem find?_prune (h : r.Sound) (hprunable : r.isPrunable id = true) (text : String) :
    (r.prune id).2.find? text = if r.find? text = some id then none else r.find? text := by
  by_cases hkey : ∃ key : PublicKey, text = key.hex
  · obtain ⟨key, rfl⟩ := hkey
    rw [find?_hex, find?_hex, lookup_prune h]
    simp only [hprunable, true_and]
  · have hnone : ∀ r : Registry α, r.find? text = none := fun r => by
      refine Option.eq_none_iff_forall_ne_some.mpr fun id hid => hkey ?_
      obtain ⟨key, htext, -⟩ := find?_eq_some_iff.mp hid
      exact ⟨key, htext⟩
    -- What is not the digits of a key is never found.
    rw [hnone, hnone, if_neg nofun]

theorem Records.follows {history : List Event} (h : r.Records history) : r.Follows history where
  kept key id hcurrent := by
    rcases getOrCreate_cases r key with ⟨id', hid, heq⟩ | ⟨hnone, -⟩
    · cases hid.symm.trans ((h.lookup key).trans hcurrent)
      exact heq
    · cases hnone.symm.trans ((h.lookup key).trans hcurrent)
  fresh key hcurrent := by
    rcases getOrCreate_cases r key with ⟨id, hid, -⟩ | ⟨-, heq⟩
    · cases hid.symm.trans ((h.lookup key).trans hcurrent)
    · rw [heq, ← h.created]
      have hnew := path?_size r
      exact ⟨h.not_handedOut hnew, hnew, path?_hold_self ..⟩
  numbers := h.numbers
  prunes id := by
    rw [fst_prune, isPrunable_iff]
    simp only [h.lookup]
  pruned id hpruned := by
    rw [fst_prune] at hpruned
    obtain ⟨p, hp, -, -⟩ := isPrunable_iff.mp hpruned
    have hmarked : (r.prune id).2.path? id = some { p with orphan := true } := by
      rw [path?_prune_eq, if_pos ⟨hpruned, rfl⟩, hp]
      rfl
    refine ⟨find?_prune h.sound hpruned, fun other hother => ?_, (h.sound.prune id).orphan_run hmarked rfl⟩
    rw [path?_prune_eq, if_neg fun hsame => hother hsame.2.symm]
  spared id hspared := by
    rw [fst_prune] at hspared
    simp [prune, hspared]
  found text id := by
    simp only [find?_eq_some_iff, h.lookup]
  orphan id hid := by
    obtain ⟨p, hp⟩ := Option.isSome_iff_exists.mp (h.known id (.inl (mem_createdPaths.mp hid)))
    exact ⟨p, hp, h.orphan id p hp⟩
  inSteps := h.sound.pruneInSteps_eq
  replaced := h.sound.getOrReplace_eq

/-- **A registry is a map from keys to paths.** Whatever is done with it and with the paths, a key has the path
that was last handed out for it, until that one is pruned. -/
theorem registry_run (operations : List (Operation α)) :
    ((empty : Registry α).run operations).Follows ((empty : Registry α).history operations) :=
  (records_run records_empty operations).follows

end Registry

end Rendezvous
