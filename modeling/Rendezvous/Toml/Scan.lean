/-!
Reading a text from its front. A step takes something off the front of the characters, or fails and
takes nothing. A class of characters is taken as far as it goes (`span_eq_some_iff`), and a step is
repeated until it fails (`many_of_eq_none`, `isSome_many`).
-/

namespace Rendezvous.Toml

/-- A step of reading: what was read, and the characters behind it. -/
abbrev Scan := StateT (List Char) Option

namespace Scan

/-- The next character, if it is of the class. -/
def one (p : Char → Bool) : Scan Char
  | c :: rest => if p c then some (c, rest) else none
  | [] => none

def char (c : Char) : Scan Unit := do
  let _ ← one (· == c)

def word (text : String) : Scan Unit :=
  text.toList.forM char

/-- All characters of the class before the first of another. -/
def span (p : Char → Bool) : Scan (List Char)
  | cs => some (cs.takeWhile p, cs.dropWhile p)

/-- Exactly so many characters of the class. -/
def exactly (n : Nat) (p : Char → Bool) : Scan (List Char)
  | cs =>
    let first := cs.take n
    if first.length = n ∧ first.all p then some (first, cs.drop n) else none

def finish : Scan Unit
  | [] => some ((), [])
  | _ :: _ => none

/-- The next character, which is left where it is. -/
def peek : Scan Char
  | [] => none
  | c :: rest => some (c, c :: rest)

/-- What the step reads, or nothing. -/
def optionally (p : Scan α) : Scan (Option α) :=
  some <$> p <|> pure none

/-- What the step reads over and over until it fails, behind what it read already, the last of which
comes first. It is repeated at most once for each character of the bound. -/
def manyWithin (p : Scan α) (bound : List Char) (done : List α) (cs : List Char) :
    Option (List α × List Char) :=
  match bound, p cs with
  | _ :: bound, some (a, rest) => manyWithin p bound (a :: done) rest
  | _, _ => some (done.reverse, cs)

/-- What the step reads over and over until it fails. A step takes a character at least. -/
def many (p : Scan α) : Scan (List α)
  | cs => manyWithin p cs [] cs

def separated (p : Scan α) : Scan (List α) :=
  (do
    let a ← p
    let as ← many (do char ','; p)
    return a :: as) <|> pure []

/-! ### What the steps take -/

theorem span_eq_some_iff {p : Char → Bool} {cs first rest : List Char} :
    span p cs = some (first, rest) ↔
      first ++ rest = cs ∧ first.all p ∧ ∀ c, rest.head? = some c → p c = false := by
  constructor
  · intro h
    cases h
    refine ⟨List.takeWhile_append_dropWhile, List.all_takeWhile, fun c h => ?_⟩
    simpa [h] using List.head?_dropWhile_not p cs
  · rintro ⟨rfl, hall, hhead⟩
    have hall := List.all_eq_true.mp hall
    rw [span, List.takeWhile_append_of_pos hall, List.dropWhile_append_of_pos hall]
    cases rest with
    | nil => simp
    | cons c rest => simp [hhead c rfl]

theorem manyWithin_nil (p : Scan α) (done : List α) (cs : List Char) :
    manyWithin p [] done cs = some (done.reverse, cs) := by
  unfold manyWithin
  rfl

theorem manyWithin_of_eq_none {p : Scan α} {cs : List Char} (h : p cs = none) (bound : List Char)
    (done : List α) : manyWithin p bound done cs = some (done.reverse, cs) := by
  unfold manyWithin
  rw [h]
  cases bound <;> rfl

theorem manyWithin_cons_of_eq_some {p : Scan α} {cs rest : List Char} {a : α}
    (h : p cs = some (a, rest)) (c : Char) (bound : List Char) (done : List α) :
    manyWithin p (c :: bound) done cs = manyWithin p bound (a :: done) rest := by
  conv => lhs; unfold manyWithin
  rw [h]

/-- What was read already stays in front. -/
theorem manyWithin_eq_map (p : Scan α) (bound : List Char) (done : List α) (cs : List Char) :
    manyWithin p bound done cs =
      (manyWithin p bound [] cs).map fun (as, rest) => (done.reverse ++ as, rest) := by
  induction bound generalizing done cs with
  | nil => simp [manyWithin_nil]
  | cons c bound ih =>
    cases h : p cs with
    | none => simp [manyWithin_of_eq_none h]
    | some step =>
      rw [manyWithin_cons_of_eq_some h, manyWithin_cons_of_eq_some h, ih (step.1 :: done), ih [step.1]]
      simp [Function.comp_def]

theorem isSome_manyWithin (p : Scan α) (bound : List Char) (done : List α) (cs : List Char) :
    (manyWithin p bound done cs).isSome := by
  induction bound generalizing done cs with
  | nil => simp [manyWithin_nil]
  | cons c bound ih =>
    cases h : p cs with
    | none => simp [manyWithin_of_eq_none h]
    | some step =>
      rw [manyWithin_cons_of_eq_some h]
      exact ih ..

/-- Repeating a step never fails. -/
theorem isSome_many (p : Scan α) (cs : List Char) : (many p cs).isSome :=
  isSome_manyWithin p cs [] cs

theorem many_of_eq_none {p : Scan α} {cs : List Char} (h : p cs = none) :
    many p cs = some ([], cs) :=
  manyWithin_of_eq_none h cs []

end Scan

end Rendezvous.Toml
