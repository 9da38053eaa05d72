import Mathlib.Data.List.TakeWhile

/-!
# Backtracking regular expressions

Matching as ECMAScript defines it: an expression takes the input, the groups captured so far and a
continuation for what follows it, and tries its alternatives in order until the continuation succeeds.

* `Regex`, `Regex.run` : the expressions and their matcher; `Regex.match?` : the match at the start;
* `run_plus_of_longest` : a repetition whose continuation fails before its longest run;
* `run_plus_of_success` : a repetition whose continuation succeeds there.
-/

/-- `set` is a character class; `optional` and `plus` are greedy; `group` captures. -/
inductive Regex (α : Type)
  | set (p : α → Bool)
  | seq (r s : Regex α)
  | alt (r s : Regex α)
  | optional (r : Regex α)
  | plus (r : Regex α)
  | group (index : Nat) (r : Regex α)

/-- What a group captured, as the positions where it starts and ends. A position is the input behind it. -/
structure SubMatch (α : Type) where
  index : Nat
  first : List α
  second : List α
  deriving DecidableEq

namespace SubMatch

variable {α : Type}

def str (m : SubMatch α) : List α := m.first.take (m.first.length - m.second.length)

theorem str_append (index : Nat) (xs rest : List α) : str ⟨index, xs ++ rest, rest⟩ = xs := by
  simp [str]

end SubMatch

namespace Regex

variable {α : Type}

/-- What runs behind an expression: on the rest of the input, with the groups so far. -/
abbrev Continuation (α : Type) := List α → List (SubMatch α) → Option (List (SubMatch α))

abbrev Matcher (α : Type) := Continuation α → Continuation α

/-- As many rounds as possible, each of which has to consume something. -/
def repeatMatcher (m : Matcher α) : Nat → Matcher α
  | 0, next, input, groups => next input groups
  | rounds + 1, next, input, groups =>
    (m (fun rest groups =>
      if rest.length < input.length then repeatMatcher m rounds next rest groups else none) input groups).or
      (next input groups)

def run : Regex α → Matcher α
  | .set p, next, input, groups =>
    match input with
    | [] => none
    | c :: rest => if p c then next rest groups else none
  | .seq r s, next, input, groups => r.run (s.run next) input groups
  | .alt r s, next, input, groups => (r.run next input groups).or (s.run next input groups)
  | .optional r, next, input, groups => (r.run next input groups).or (next input groups)
  | .plus r, next, input, groups =>
    r.run (fun rest groups => repeatMatcher r.run rest.length next rest groups) input groups
  | .group index r, next, input, groups =>
    r.run (fun rest groups => next rest (⟨index, input, rest⟩ :: groups)) input groups

/-- The groups of the match at the start of the input, the last one first. -/
def match? (r : Regex α) (input : List α) : Option (List (SubMatch α)) :=
  r.run (fun _ groups => some groups) input []

/-! ## One character -/

variable {p : α → Bool} {next : Continuation α} {groups : List (SubMatch α)} {c : α} {rest : List α}

theorem run_set_of_pos (h : p c = true) : (set p).run next (c :: rest) groups = next rest groups := if_pos h

/-- No character of the class stands at the start of the input. -/
def Absent (p : α → Bool) (input : List α) : Prop := ∀ c ∈ input.head?, ¬ p c = true

theorem absent_nil : Absent p [] := by simp [Absent]

theorem absent_cons (h : ¬ p c = true) : Absent p (c :: rest) := by
  intro d hd
  obtain rfl := Option.some.inj hd
  exact h

theorem run_set_of_absent {input : List α} (h : Absent p input) : (set p).run next input groups = none := by
  cases input with
  | nil => rfl
  | cons c rest => exact if_neg (h c rfl)

/-! ## Repetitions of one character -/

theorem repeatMatcher_set_of_pos (h : p c = true) (rounds : Nat) :
    repeatMatcher (set p).run (rounds + 1) next (c :: rest) groups =
      (repeatMatcher (set p).run rounds next rest groups).or (next (c :: rest) groups) := by
  rw [repeatMatcher, run_set_of_pos h, if_pos (by simp)]

theorem repeatMatcher_set_of_absent {input : List α} (h : Absent p input) (rounds : Nat) :
    repeatMatcher (set p).run rounds next input groups = next input groups := by
  cases rounds with
  | zero => rfl
  | succ rounds => rw [repeatMatcher, run_set_of_absent h, Option.none_or]

/-- The longest run decides where what follows succeeds on it. -/
theorem repeatMatcher_set_of_success {input : List α} {result : List (SubMatch α)}
    (h : next (input.dropWhile p) groups = some result) :
    repeatMatcher (set p).run input.length next input groups = some result := by
  induction input with
  | nil => exact h
  | cons c rest ih =>
    by_cases hc : p c
    · rw [List.dropWhile_cons_of_pos hc] at h
      rw [List.length_cons, repeatMatcher_set_of_pos hc, ih h, Option.some_or]
    · rw [List.dropWhile_cons_of_neg hc] at h
      rw [repeatMatcher_set_of_absent (absent_cons hc), h]

/-- The longest run decides where what follows cannot start with a character of the class. -/
theorem repeatMatcher_set_of_longest {input : List α}
    (h : ∀ c rest, p c = true → next (c :: rest) groups = none) :
    repeatMatcher (set p).run input.length next input groups = next (input.dropWhile p) groups := by
  induction input with
  | nil => rfl
  | cons c rest ih =>
    by_cases hc : p c
    · rw [List.length_cons, repeatMatcher_set_of_pos hc, ih, h c rest hc, Option.or_none,
        List.dropWhile_cons_of_pos hc]
    · rw [repeatMatcher_set_of_absent (absent_cons hc), List.dropWhile_cons_of_neg hc]

theorem run_plus_of_absent {input : List α} (h : Absent p input) :
    (plus (set p)).run next input groups = none := by
  rw [run, run_set_of_absent h]

theorem run_plus_of_success {result : List (SubMatch α)} (hc : p c = true)
    (h : next (rest.dropWhile p) groups = some result) :
    (plus (set p)).run next (c :: rest) groups = some result := by
  rw [run, run_set_of_pos hc, repeatMatcher_set_of_success h]

theorem run_plus_of_longest (hc : p c = true) (h : ∀ c rest, p c = true → next (c :: rest) groups = none) :
    (plus (set p)).run next (c :: rest) groups = next (rest.dropWhile p) groups := by
  rw [run, run_set_of_pos hc, repeatMatcher_set_of_longest h]

end Regex
