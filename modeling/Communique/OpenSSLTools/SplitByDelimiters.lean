import Communique.Bytes
import Communique.Lib.Split

/-!
# `splitByDelimiters`: the hand-written splitter

The function follows the loop with its positions and its `npos`, by recursion. `SplitState` and `splitRound`
are the loop as it stands: the round decides by `npos + 1`, which wraps to zero, whether there is another one.

* `splitByDelimiters` : the function;
* `splitRounds_eq` : the loop ends after at most one round more than there are characters, with the same result;
* `splitByDelimiters_eq` : it never throws, and its elements are the pieces between the delimiters, less the
  last one where the string ends in a delimiter;
* **`splitByDelimiters_documented_iff`** : it splits as documented exactly when the string ends in no delimiter.
-/

namespace Communique
open Split

/-! ## `std::string` -/

/-- `find_first_of`, from `position` on; `none` is `npos`. -/
def findFirstOf (s delimiters : Bytes) (position : Nat) : Option Nat :=
  ((s.drop position).findIdx? (· ∈ delimiters)).map (position + ·)

/-- The `std::out_of_range` of `std::string`. -/
def outOfRange : Exn := .exception (ascii "basic_string::substr")

/-- `substr`, up to the end without a `count`. -/
def substr (s : Bytes) (position : Nat) (count : Option Nat) : Except Exn Bytes :=
  if position ≤ s.length then
    .ok (match count with
      | some count => (s.drop position).take count
      | none => s.drop position)
  else .error outOfRange

theorem findFirstOf_ge {s delimiters : Bytes} {position next : Nat}
    (h : findFirstOf s delimiters position = some next) : position ≤ next := by
  obtain ⟨k, -, rfl⟩ := Option.map_eq_some_iff.mp h
  exact Nat.le_add_right position k

/-! ## The splitter -/

/-- The `do` loop. `npos + 1` is zero and `npos - currentPosition` more than the string holds: the last
element reaches to the end of the string, and the loop ends on `npos`. -/
def splitLoop (stringToSplit delimiters : Bytes) (currentPosition : Nat) (returnValue : List Bytes) :
    Except Exn (List Bytes) :=
  match hnext : findFirstOf stringToSplit delimiters currentPosition with
  | none => (substr stringToSplit currentPosition none).map fun element => returnValue ++ [element]
  | some nextDelimiter =>
    (substr stringToSplit currentPosition (some (nextDelimiter - currentPosition))).bind fun element =>
      if nextDelimiter + 1 < stringToSplit.length then
        splitLoop stringToSplit delimiters (nextDelimiter + 1) (returnValue ++ [element])
      else .ok (returnValue ++ [element])
termination_by stringToSplit.length - currentPosition
decreasing_by
  have := findFirstOf_ge hnext
  omega

def splitByDelimiters (stringToSplit delimiters : Bytes) : Except Exn (List Bytes) :=
  splitLoop stringToSplit delimiters 0 []

/-! ## The loop, round by round -/

/-- The variables of the loop; `none` is `npos`. -/
structure SplitState where
  currentPosition : Nat
  nextDelimiter : Option Nat
  returnValue : List Bytes

/-- `nextDelimiter + 1`. -/
def afterDelimiter : Option Nat → Nat
  | none => 0
  | some nextDelimiter => nextDelimiter + 1

/-- One round. The distance from `npos` is more than any string holds. -/
def splitRound (stringToSplit delimiters : Bytes) (state : SplitState) : Except Exn SplitState :=
  let nextDelimiter := findFirstOf stringToSplit delimiters state.currentPosition
  (substr stringToSplit state.currentPosition (nextDelimiter.map (· - state.currentPosition))).map fun element =>
    if afterDelimiter nextDelimiter < stringToSplit.length then
      ⟨afterDelimiter nextDelimiter, nextDelimiter, state.returnValue ++ [element]⟩
    else ⟨state.currentPosition, none, state.returnValue ++ [element]⟩

/-- The `do` loop, if it ends within the given number of rounds. -/
def splitRounds (stringToSplit delimiters : Bytes) : Nat → SplitState → Option (Except Exn (List Bytes))
  | 0, _ => none
  | rounds + 1, state =>
    match splitRound stringToSplit delimiters state with
    | .error e => some (.error e)
    | .ok state =>
      if state.nextDelimiter ≠ none then splitRounds stringToSplit delimiters rounds state
      else some (.ok state.returnValue)

/-- The variables before the loop. -/
def SplitState.start : SplitState := ⟨0, some 0, []⟩

theorem splitLoop_of_none {s delimiters : Bytes} {position : Nat} (acc : List Bytes)
    (h : findFirstOf s delimiters position = none) :
    splitLoop s delimiters position acc = (substr s position none).map fun element => acc ++ [element] := by
  rw [splitLoop]
  split
  · rfl
  · next hnext => exact absurd (h.symm.trans hnext) (by simp)

theorem splitLoop_of_some {s delimiters : Bytes} {position next : Nat} (acc : List Bytes)
    (h : findFirstOf s delimiters position = some next) :
    splitLoop s delimiters position acc =
      (substr s position (some (next - position))).bind fun element =>
        if next + 1 < s.length then splitLoop s delimiters (next + 1) (acc ++ [element])
        else .ok (acc ++ [element]) := by
  rw [splitLoop]
  split
  · next hnext => exact absurd (h.symm.trans hnext) (by simp)
  · next hnext =>
    obtain rfl := Option.some.inj (h.symm.trans hnext)
    rfl

/-- The rounds from the variables on give what the recursion gives. -/
theorem splitRounds_splitLoop (s delimiters : Bytes) {rounds : Nat} (state : SplitState)
    (h : s.length - state.currentPosition < rounds) :
    splitRounds s delimiters rounds state =
      some (splitLoop s delimiters state.currentPosition state.returnValue) := by
  induction rounds generalizing state with
  | zero => exact absurd h (Nat.not_lt_zero _)
  | succ rounds ih =>
    rw [splitRounds, splitRound]
    cases hnext : findFirstOf s delimiters state.currentPosition with
    | none =>
      rw [splitLoop_of_none _ hnext, Option.map_none]
      cases substr s state.currentPosition none with
      | error e => rfl
      | ok element =>
        -- `npos + 1` is inside a string that is not empty, but the loop ends on `npos` all the same
        dsimp only [Except.map]
        split <;> rfl
    | some next =>
      have hge := findFirstOf_ge hnext
      rw [splitLoop_of_some _ hnext, Option.map_some]
      cases substr s state.currentPosition (some (next - state.currentPosition)) with
      | error e => rfl
      | ok element =>
        dsimp only [Except.map, Except.bind]
        by_cases hlt : next + 1 < s.length
        · rw [if_pos hlt, if_pos (show afterDelimiter (some next) < s.length from hlt)]
          exact ih ⟨next + 1, some next, state.returnValue ++ [element]⟩ (by dsimp only; omega)
        · rw [if_neg hlt, if_neg (show ¬ afterDelimiter (some next) < s.length from hlt)]
          rfl

/-- The loop ends. -/
theorem splitRounds_eq (s delimiters : Bytes) :
    splitRounds s delimiters (s.length + 1) .start = some (splitByDelimiters s delimiters) :=
  splitRounds_splitLoop s delimiters .start (Nat.lt_succ_self s.length)

/-! ## What the splitter returns -/

theorem findFirstOf_none {s delimiters : Bytes} {position : Nat}
    (h : findFirstOf s delimiters position = none) :
    ∀ c ∈ s.drop position, decide (c ∈ delimiters) = false := by
  rw [findFirstOf, Option.map_eq_none_iff, List.findIdx?_eq_none_iff] at h
  exact h

/-- What is found is the first delimiter behind the position. -/
theorem findFirstOf_some {s delimiters : Bytes} {position next : Nat}
    (h : findFirstOf s delimiters position = some next) :
    ∃ element d rest, s.drop position = element ++ d :: rest ∧
      (∀ c ∈ element, decide (c ∈ delimiters) = false) ∧ decide (d ∈ delimiters) = true ∧
      next = position + element.length := by
  obtain ⟨k, hk, rfl⟩ := Option.map_eq_some_iff.mp h
  obtain ⟨hlt, hat, hbefore⟩ := List.findIdx?_eq_some_iff_getElem.mp hk
  refine ⟨(s.drop position).take k, (s.drop position)[k], (s.drop position).drop (k + 1), ?_, ?_, hat, ?_⟩
  · rw [List.getElem_cons_drop, List.take_append_drop]
  · intro c hc
    obtain ⟨i, hi, rfl⟩ := List.mem_take_iff_getElem.mp hc
    exact (Bool.not_eq_true _).mp (hbefore i (by omega))
  · rw [List.length_take, Nat.min_eq_left (Nat.le_of_lt hlt)]

/-- The elements from a position on. -/
theorem splitLoop_eq (s delimiters : Bytes) (position : Nat) (acc : List Bytes)
    (hp : position < s.length ∨ position = 0) :
    splitLoop s delimiters position acc =
      .ok (acc ++ (chompAny (· ∈ delimiters) (s.drop position)).splitOnP (· ∈ delimiters)) := by
  have hle : position ≤ s.length := by omega
  fun_induction splitLoop s delimiters position acc with
  | case1 position acc hnext =>
    have hfree := findFirstOf_none hnext
    rw [substr, if_pos hle, chompAny_of_free hfree, List.splitOnP_eq_singleton hfree]
    rfl
  | case2 position acc next hnext ih =>
    obtain ⟨element, d, rest, hdrop, hfree, hd, rfl⟩ := findFirstOf_some hnext
    have helement : substr s position (some (position + element.length - position)) = .ok element := by
      rw [substr, if_pos hle, hdrop, Nat.add_sub_cancel_left]
      exact congrArg Except.ok List.take_left
    have hlength : s.length = position + element.length + 1 + rest.length := by
      have := congrArg List.length hdrop
      simp only [List.length_drop, List.length_append, List.length_cons] at this
      omega
    have hrest : s.drop (position + element.length + 1) = rest := by
      rw [Nat.add_assoc, ← List.drop_drop, hdrop, List.drop_length_add_append]
      rfl
    rw [helement, Except.bind]
    split
    · have hne : rest ≠ [] := by
        rintro rfl
        simp at hlength
        omega
      rw [ih element (by assumption) (by omega) (by omega), hrest, hdrop, chompAny_append_cons hne,
        List.splitOnP_append_cons_of_forall_mem hfree d hd, List.append_assoc, List.singleton_append]
    · have hnil : rest = [] := by
        apply List.eq_nil_of_length_eq_zero
        omega
      rw [hdrop, hnil, chompAny_concat (p := fun c => decide (c ∈ delimiters)) hd,
        List.splitOnP_eq_singleton hfree]

/-- The splitter never throws. The element behind a delimiter at the very end is missing. -/
theorem splitByDelimiters_eq (s delimiters : Bytes) :
    splitByDelimiters s delimiters =
      .ok ((chompAny (· ∈ delimiters) s).splitOnP (· ∈ delimiters)) := by
  rw [splitByDelimiters, splitLoop_eq s delimiters 0 [] (Or.inr rfl), List.drop_zero, List.nil_append]

theorem splitByDelimiters_singleton (s : Bytes) (d : UInt8) :
    splitByDelimiters s [d] = .ok ((chomp d s).splitOn d) := by
  have hsingleton : (fun c => decide (c ∈ [d])) = (· == d) := by
    funext c
    rw [Bool.beq_eq_decide_eq, decide_eq_decide, List.mem_singleton]
  rw [splitByDelimiters_eq, hsingleton, chomp_eq_chompAny, List.splitOn_eq_splitOnP]

/-! ## The documentation -/

/-- Any single delimiter produces a new element, and the elements are what stands between the delimiters. -/
def SplitsAsDocumented (stringToSplit delimiters : Bytes) (elements : List Bytes) : Prop :=
  CutAt (· ∈ delimiters) stringToSplit elements

theorem endsInAny_iff {s delimiters : Bytes} :
    EndsInAny (· ∈ delimiters) s ↔ ∃ d ∈ delimiters, EndsIn d s := by
  unfold EndsInAny EndsIn
  cases s.getLast? with
  | none => simp
  | some c => simp

/-- **`splitByDelimiters` splits as documented if and only if the string does not end in a delimiter.** Its
loop ends on every string, and `substr` is never given a position behind the end. -/
theorem splitByDelimiters_documented_iff (stringToSplit delimiters : Bytes) :
    (∃ elements, splitRounds stringToSplit delimiters (stringToSplit.length + 1) .start = some (.ok elements) ∧
        splitByDelimiters stringToSplit delimiters = .ok elements ∧
        SplitsAsDocumented stringToSplit delimiters elements) ↔
      ∀ d ∈ delimiters, ¬ EndsIn d stringToSplit := by
  have hends : (∀ d ∈ delimiters, ¬ EndsIn d stringToSplit) ↔ ¬ EndsInAny (· ∈ delimiters) stringToSplit := by
    rw [endsInAny_iff]
    simp
  rw [hends, splitRounds_eq, splitByDelimiters_eq, ← splitOnP_chompAny]
  constructor
  · rintro ⟨elements, -, helements, hdoc⟩
    rw [Except.ok.inj helements]
    exact cutAt_iff.mp hdoc
  · intro heq
    exact ⟨_, rfl, rfl, cutAt_iff.mpr heq⟩

/-- A dot at the end: the empty element behind it is missing. -/
theorem splitByDelimiters_dot_at_end :
    splitByDelimiters (ascii "a.") (ascii ".") = .ok [ascii "a"] ∧
      ¬ SplitsAsDocumented (ascii "a.") (ascii ".") [ascii "a"] := by
  constructor
  · rw [splitByDelimiters_eq]
    decide
  · intro hdoc
    exact absurd hdoc.length (by decide)

end Communique
