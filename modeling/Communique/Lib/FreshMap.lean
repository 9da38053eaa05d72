import Communique.Lib.Run
import Mathlib.Logic.Function.Basic

/-!
# A finite map that chooses its own keys

`put` stores a value under some key that is not in use and returns the key; `take` and `get` find a
value by its key, `take` removes it. The map does not say which free key it chooses.

* `Step` : one call with its reply; `lastPut` : the value of the last `put` that returned a key;
* `run_lastPut` : what is stored under a key is the value of the last `put` that returned it.
-/

namespace FreshMap
open Transition

universe u v
variable {K : Type u} {V : Type v}

inductive Call (K : Type u) (V : Type v)
  | put (value : V)
  | take (key : K)
  | get (key : K)

inductive Reply (K : Type u) (V : Type v)
  | key (key : K)
  | value (value : V)
  | failed

variable [DecidableEq K]

/-- One call on the map, with its reply. -/
inductive Step : (K → Option V) → Call K V × Reply K V → (K → Option V) → Prop
  | put {m : K → Option V} {k : K} {v : V} (fresh : m k = none) :
      Step m (.put v, .key k) (Function.update m k (some v))
  | putFailed {m : K → Option V} {v : V} (full : ∀ k, m k ≠ none) : Step m (.put v, .failed) m
  | take {m : K → Option V} {k : K} {v : V} (stored : m k = some v) :
      Step m (.take k, .value v) (Function.update m k none)
  | takeFailed {m : K → Option V} {k : K} (absent : m k = none) : Step m (.take k, .failed) m
  | get {m : K → Option V} {k : K} {v : V} (stored : m k = some v) : Step m (.get k, .value v) m
  | getFailed {m : K → Option V} {k : K} (absent : m k = none) : Step m (.get k, .failed) m

/-- The value of the last `put` of the history that returned `k`. -/
def lastPut (h : List (Call K V × Reply K V)) (k : K) : Option V :=
  h.foldl (fun last entry => match entry with
    | (.put v, .key k') => if k' = k then some v else last
    | _ => last) none

@[simp] theorem lastPut_put (h : List (Call K V × Reply K V)) (v : V) (k' k : K) :
    lastPut (h ++ [(.put v, .key k')]) k = if k' = k then some v else lastPut h k := by
  simp [lastPut]

/-- A call that returns no key does not change the last `put`. -/
theorem lastPut_other (h : List (Call K V × Reply K V)) (c : Call K V) (r : Reply K V) (k : K)
    (hr : ∀ k', r ≠ .key k') : lastPut (h ++ [(c, r)]) k = lastPut h k := by
  unfold lastPut
  rw [List.foldl_append]
  cases c <;> cases r <;> first | rfl | exact absurd rfl (hr _)

/-- **What is stored under a key is the value of the last `put` that returned the key.** -/
theorem run_lastPut {h : List (Call K V × Reply K V)} {m : K → Option V}
    (hrun : Run Step (fun _ => none) h m) {k : K} {v : V} (hk : m k = some v) :
    lastPut h k = some v := by
  induction hrun generalizing k v with
  | nil => cases hk
  | snoc _ step ih =>
    cases step with
    | @put k' v' fresh =>
      rw [lastPut_put]
      by_cases hkk : k' = k
      · subst hkk
        rw [if_pos rfl, ← hk, Function.update_self]
      · rw [Function.update_of_ne (Ne.symm hkk)] at hk
        rw [if_neg hkk, ih hk]
    | @take k' v' stored =>
      rw [lastPut_other _ _ _ _ (by simp)]
      by_cases hkk : k = k'
      · rw [hkk, Function.update_self] at hk
        cases hk
      · rw [Function.update_of_ne hkk] at hk
        exact ih hk
    | putFailed | takeFailed | get | getFailed =>
      rw [lastPut_other _ _ _ _ (by simp)]
      exact ih hk

end FreshMap
