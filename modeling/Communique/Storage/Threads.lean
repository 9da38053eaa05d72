import Communique.Lib.Mutex
import Communique.Storage.Refinement

/-!
# The storage and its mutex

Every function of `UniqueTokenStorage` locks `lockMutex_` with a `lock_guard`; the threads of an end call them at any
time. Here the functions are taken apart into statements, each turn of a loop for itself, and any threads
run them side by side.

* `Location`, `statement`, `storage` : where a thread can be in a function, and what it does there;
* `Visits` : where a call that nobody disturbs can be, `visits_goes` and `visits_last` : and what it returns, which is
  what `call` returns;
* **`threads_serial`** : whatever the threads do, the calls that have returned are calls one after the other;
* **`threads_return`** : every call of every thread can come to its end.
-/

namespace Communique.Storage
open Listing Transition Mutex

variable {w : Nat} {E : Type}

/-! ## The functions, statement by statement -/

inductive Location (w : Nat) (E : Type)
  /-- Before the tests of `getFreeToken`. -/
  | pushing (newElement : E)
  /-- In the loop of `getFreeToken`. -/
  | searching (newElement : E) (token : BitVec w) (iEntry : Nat)
  /-- Before `emplace`. -/
  | placing (newElement : E) (token : BitVec w) (iterator : Nat)
  /-- In the loop of `pop`; the version without `returnValue` throws where no entry is found. -/
  | popping (throws : Bool) (token : BitVec w) (iEntry : Nat)
  /-- The element has been moved out, its entry is still there. -/
  | erasing (iEntry : Nat) (returnValue : E)
  /-- In the loop of `at`. -/
  | looking (token : BitVec w) (iEntry : Nat)

/-- One statement of a thread. `moved` is what an element is after `std::move` has taken its value. -/
def statement (moved : E) (container : List (BitVec w × E)) :
    Location w E → List (BitVec w × E) × (Location w E ⊕ Result w E)
  | .pushing newElement =>
    (container, .inl <| match container with
      | [] => .placing newElement (unsigned w).min 0
      | front :: rest =>
        let back := (front :: rest).getLast (List.cons_ne_nil front rest)
        if back.1 ≠ (unsigned w).max then .placing newElement ((unsigned w).incr back.1) (front :: rest).length
        else if front.1 ≠ (unsigned w).min then .placing newElement ((unsigned w).decr front.1) 0
        else .searching newElement front.1 0)
  | .searching newElement token iEntry =>
    match container[iEntry]? with
    | none => (container, .inr <| .exception <|
        runtimeError "communique::impl::UniqueTokenStorage::push couldn't find free space")
    | some entry =>
      if token ≠ entry.1 then (container, .inl <| .placing newElement token iEntry)
      else (container, .inl <| .searching newElement ((unsigned w).incr token) (iEntry + 1))
  | .placing newElement token iterator => (container.insertIdx iterator (token, newElement), .inr <| .token token)
  | .popping throws token iEntry =>
    match container[iEntry]? with
    | none => (container, .inr <| if throws then .exception <|
        runtimeError "communique::impl::UniqueTokenStorage::pop couldn't find token" else .notFound)
    | some entry =>
      if token = entry.1 then (container.set iEntry (entry.1, moved), .inl <| .erasing iEntry entry.2)
      else (container, .inl <| .popping throws token (iEntry + 1))
  | .erasing iEntry returnValue => (container.eraseIdx iEntry, .inr <| .element returnValue)
  | .looking token iEntry =>
    match container[iEntry]? with
    | none => (container, .inr .notFound)
    | some entry =>
      if token = entry.1 then (container, .inr <| .element entry.2)
      else (container, .inl <| .looking token (iEntry + 1))

/-- The functions of the template as functions of an object behind a mutex. -/
def storage (w : Nat) (moved : E) : Object (List (BitVec w × E)) (Op w E) (Location w E) (Result w E) where
  enter
    | .push newElement => .pushing newElement
    | .pop token => .popping true token 0
    | .popInto token => .popping false token 0
    | .atPointer token => .looking token 0
  statement := statement moved

/-! ## A call that nobody disturbs -/

/-- The `pop` that throws where no entry is found, or the other one. -/
def popOp (throws : Bool) (token : BitVec w) : Op w E := if throws then .pop token else .popInto token

/-- Where a call alone on `container` can be. -/
inductive Visits (moved : E) (container : List (BitVec w × E)) :
    Op w E → List (BitVec w × E) → Location w E → Prop
  | pushing {newElement : E} : Visits moved container (.push newElement) container (.pushing newElement)
  | searching {newElement : E} {token : BitVec w} {before after : List (BitVec w × E)}
      (hc : container = before ++ after)
      (hfree : getFreeToken (unsigned w) container = match findGap (unsigned w) token after before.length with
        | some gap => .ok gap
        | none => .error (runtimeError "communique::impl::UniqueTokenStorage::push couldn't find free space")) :
      Visits moved container (.push newElement) container (.searching newElement token before.length)
  | placing {newElement : E} {token : BitVec w} {iterator : Nat}
      (hfree : getFreeToken (unsigned w) container = .ok (token, iterator)) :
      Visits moved container (.push newElement) container (.placing newElement token iterator)
  | popping {throws : Bool} {token : BitVec w} {before after : List (BitVec w × E)}
      (hc : container = before ++ after) (hbefore : ∀ p ∈ before, token ≠ p.1) :
      Visits moved container (popOp throws token) container (.popping throws token before.length)
  | erasing {throws : Bool} {entry : BitVec w × E} {before after : List (BitVec w × E)}
      (hc : container = before ++ entry :: after) (hbefore : ∀ p ∈ before, entry.1 ≠ p.1) :
      Visits moved container (popOp throws entry.1) (before ++ (entry.1, moved) :: after)
        (.erasing before.length entry.2)
  | looking {token : BitVec w} {before after : List (BitVec w × E)}
      (hc : container = before ++ after) (hbefore : ∀ p ∈ before, token ≠ p.1) :
      Visits moved container (.atPointer token) container (.looking token before.length)

theorem getElem?_length_append {α : Type} (before after : List α) : (before ++ after)[before.length]? = after.head? := by
  rw [List.getElem?_append_right le_rfl, Nat.sub_self, List.head?_eq_getElem?]

/-! ### The loops at an entry and at the end -/

section Loops
variable (moved newElement : E) (throws : Bool) (token : BitVec w) (before after : List (BitVec w × E))
  (entry : BitVec w × E)

theorem statement_searching :
    statement moved (before ++ entry :: after) (.searching newElement token before.length) =
      if token ≠ entry.1 then (before ++ entry :: after, .inl <| .placing newElement token before.length)
      else (before ++ entry :: after, .inl <| .searching newElement ((unsigned w).incr token) (before.length + 1)) := by
  rw [statement, getElem?_length_append]
  rfl

theorem statement_searching_end :
    statement moved (before ++ []) (.searching newElement token before.length) =
      (before ++ [], .inr <| .exception <|
        runtimeError "communique::impl::UniqueTokenStorage::push couldn't find free space") := by
  rw [statement, getElem?_length_append]
  rfl

theorem statement_popping :
    statement moved (before ++ entry :: after) (.popping throws token before.length) =
      if token = entry.1 then (before ++ (entry.1, moved) :: after, .inl <| .erasing before.length entry.2)
      else (before ++ entry :: after, .inl <| .popping throws token (before.length + 1)) := by
  have hset : (before ++ entry :: after).set before.length (entry.1, moved) =
      before ++ (entry.1, moved) :: after := by
    rw [List.set_append_right _ _ le_rfl, Nat.sub_self, List.set_cons_zero]
  rw [statement, getElem?_length_append, ← hset]
  rfl

theorem statement_popping_end :
    statement moved (before ++ []) (.popping throws token before.length) =
      (before ++ [], .inr <| if throws then .exception <|
        runtimeError "communique::impl::UniqueTokenStorage::pop couldn't find token" else .notFound) := by
  rw [statement, getElem?_length_append]
  rfl

theorem statement_looking :
    statement moved (before ++ entry :: after) (.looking token before.length) =
      if token = entry.1 then (before ++ entry :: after, .inr <| .element entry.2)
      else (before ++ entry :: after, .inl <| .looking token (before.length + 1)) := by
  rw [statement, getElem?_length_append]
  rfl

theorem statement_looking_end :
    statement moved (before ++ []) (.looking token before.length) = (before ++ [], .inr .notFound) := by
  rw [statement, getElem?_length_append]
  rfl

end Loops

theorem length_concat {α : Type} (before : List α) (a : α) : (before ++ [a]).length = before.length + 1 := by
  rw [List.length_append, List.length_singleton]

theorem append_cons {α : Type} (before after : List α) (a : α) : before ++ a :: after = (before ++ [a]) ++ after := by
  rw [List.append_assoc, List.singleton_append]

/-- The first entry under the token, with what stands before and behind it. -/
theorem find?_first {token : BitVec w} {before after : List (BitVec w × E)} {entry : BitVec w × E}
    (hbefore : ∀ p ∈ before, token ≠ p.1) (ht : token = entry.1) :
    (before ++ entry :: after).find? (fun p => token == p.1) = some entry := by
  rw [List.find?_append, List.find?_eq_none.mpr fun p hp => by simpa using hbefore p hp, Option.none_or,
    List.find?_cons_of_pos (by simpa using ht)]

theorem eraseKey_first {token : BitVec w} {before after : List (BitVec w × E)} {entry : BitVec w × E}
    (hbefore : ∀ p ∈ before, token ≠ p.1) (ht : token = entry.1) :
    eraseKey (before ++ entry :: after) token = before ++ after := by
  rw [eraseKey, List.eraseP_append_right _ fun p hp => by simpa using hbefore p hp,
    List.eraseP_cons_of_pos (by simpa using ht)]

theorem ne_of_concat {token : BitVec w} {before : List (BitVec w × E)} {entry : BitVec w × E}
    (hbefore : ∀ p ∈ before, token ≠ p.1) (hne : token ≠ entry.1) : ∀ p ∈ before ++ [entry], token ≠ p.1 := by
  intro p hp
  rcases List.mem_append.mp hp with hp | hp
  · exact hbefore p hp
  · rw [List.mem_singleton.mp hp]
    exact hne

theorem find?_absent {token : BitVec w} {container : List (BitVec w × E)} (h : ∀ p ∈ container, token ≠ p.1) :
    container.find? (fun p => token == p.1) = none :=
  List.find?_eq_none.mpr fun p hp => by simpa using h p hp

theorem call_popOp_found {throws : Bool} {before after : List (BitVec w × E)} {entry : BitVec w × E}
    (hbefore : ∀ p ∈ before, entry.1 ≠ p.1) :
    call (before ++ entry :: after) (popOp throws entry.1) = (before ++ after, .element entry.2) := by
  cases throws <;>
    simp [popOp, call, pop, popInto, find?_first hbefore rfl, eraseKey_first hbefore rfl]

theorem call_popOp_absent {throws : Bool} {token : BitVec w} {container : List (BitVec w × E)}
    (h : ∀ p ∈ container, token ≠ p.1) :
    call container (popOp throws token) = (container, if throws then .exception <|
      runtimeError "communique::impl::UniqueTokenStorage::pop couldn't find token" else .notFound) := by
  cases throws <;> simp [popOp, call, pop, popInto, find?_absent h]

theorem visits_enter (moved : E) (container : List (BitVec w × E)) (op : Op w E) :
    Visits moved container op container ((storage w moved).enter op) := by
  have hnil : container = [] ++ container := rfl
  have hnone : ∀ (token : BitVec w), ∀ p ∈ ([] : List (BitVec w × E)), token ≠ p.1 := fun token p hp => nomatch hp
  cases op with
  | push newElement => exact Visits.pushing
  | pop token =>
    show Visits moved container (popOp true token) container (.popping true token 0)
    exact Visits.popping hnil (hnone token)
  | popInto token =>
    show Visits moved container (popOp false token) container (.popping false token 0)
    exact Visits.popping hnil (hnone token)
  | atPointer token => exact Visits.looking hnil (hnone token)

/-- The tests of `getFreeToken` decide where the call goes on. -/
theorem visits_pushing {moved : E} {container c' : List (BitVec w × E)} {newElement : E} {loc' : Location w E}
    (hst : statement moved container (.pushing newElement) = (c', .inl loc')) :
    Visits moved container (.push newElement) c' loc' := by
  cases container with
  | nil =>
    cases hst
    exact Visits.placing rfl
  | cons front rest =>
    rw [statement, Prod.mk.injEq, Sum.inl.injEq] at hst
    obtain ⟨rfl, rfl⟩ := hst
    by_cases hback : ((front :: rest).getLast (List.cons_ne_nil front rest)).1 ≠ (unsigned w).max
    · dsimp only
      rw [if_pos hback]
      apply Visits.placing
      rw [getFreeToken]
      exact if_pos hback
    · by_cases hfront : front.1 ≠ (unsigned w).min
      · dsimp only
        rw [if_neg hback, if_pos hfront]
        apply Visits.placing
        rw [getFreeToken]
        exact (if_neg hback).trans (if_pos hfront)
      · dsimp only
        rw [if_neg hback, if_neg hfront]
        have hnil : front :: rest = [] ++ front :: rest := rfl
        apply Visits.searching hnil
        rw [getFreeToken]
        refine (if_neg hback).trans ((if_neg hfront).trans ?_)
        rw [List.length_nil]
        cases findGap (unsigned w) front.1 (front :: rest) 0 <;> rfl

/-- A statement that is not the last one leads on to where the call can be. -/
theorem visits_goes {moved : E} {container c c' : List (BitVec w × E)} {op : Op w E} {loc loc' : Location w E}
    (h : Visits moved container op c loc) (hst : statement moved c loc = (c', .inl loc')) :
    Visits moved container op c' loc' := by
  cases h with
  | pushing => exact visits_pushing hst
  | @searching newElement token before after hc hfree =>
    subst hc
    cases after with
    | nil =>
      rw [statement_searching_end] at hst
      cases hst
    | cons entry after =>
      rw [statement_searching] at hst
      by_cases heq : token ≠ entry.1
      · rw [if_pos heq] at hst
        cases hst
        apply Visits.placing
        rw [hfree, findGap, if_pos heq]
      · rw [if_neg heq] at hst
        cases hst
        rw [← length_concat before entry]
        apply Visits.searching (append_cons before after entry)
        rw [hfree, findGap, if_neg heq, length_concat]
  | placing hfree => cases hst
  | @popping throws token before after hc hbefore =>
    subst hc
    cases after with
    | nil =>
      rw [statement_popping_end] at hst
      cases hst
    | cons entry after =>
      rw [statement_popping] at hst
      by_cases heq : token = entry.1
      · rw [if_pos heq] at hst
        cases hst
        subst heq
        exact Visits.erasing rfl hbefore
      · rw [if_neg heq] at hst
        cases hst
        rw [← length_concat before entry]
        exact Visits.popping (append_cons before after entry) (ne_of_concat hbefore heq)
  | erasing hc hbefore => cases hst
  | @looking token before after hc hbefore =>
    subst hc
    cases after with
    | nil =>
      rw [statement_looking_end] at hst
      cases hst
    | cons entry after =>
      rw [statement_looking] at hst
      by_cases heq : token = entry.1
      · rw [if_pos heq] at hst
        cases hst
      · rw [if_neg heq] at hst
        cases hst
        rw [← length_concat before entry]
        exact Visits.looking (append_cons before after entry) (ne_of_concat hbefore heq)

/-- The last statement leaves and returns what `call` does. -/
theorem visits_last {moved : E} {container c c' : List (BitVec w × E)} {op : Op w E} {loc : Location w E}
    {result : Result w E} (h : Visits moved container op c loc)
    (hst : statement moved c loc = (c', .inr result)) : call container op = (c', result) := by
  cases h with
  | pushing => cases hst
  | @searching newElement token before after hc hfree =>
    subst hc
    cases after with
    | nil =>
      rw [statement_searching_end] at hst
      cases hst
      rw [findGap] at hfree
      rw [call, push, hfree]
    | cons entry after =>
      rw [statement_searching] at hst
      by_cases heq : token ≠ entry.1
      · rw [if_pos heq] at hst
        cases hst
      · rw [if_neg heq] at hst
        cases hst
  | placing hfree =>
    cases hst
    rw [call, push, hfree]
  | @popping throws token before after hc hbefore =>
    subst hc
    cases after with
    | nil =>
      rw [statement_popping_end] at hst
      rw [call_popOp_absent (by simpa using hbefore)]
      rw [Prod.mk.injEq, Sum.inr.injEq] at hst
      exact Prod.ext hst.1 hst.2
    | cons entry after =>
      rw [statement_popping] at hst
      by_cases heq : token = entry.1
      · rw [if_pos heq] at hst
        cases hst
      · rw [if_neg heq] at hst
        cases hst
  | @erasing throws entry before after hc hbefore =>
    rw [statement, List.eraseIdx_append_of_length_le le_rfl, Nat.sub_self, List.eraseIdx_zero, List.tail_cons] at hst
    cases hst
    rw [hc, call_popOp_found hbefore]
  | @looking token before after hc hbefore =>
    subst hc
    cases after with
    | nil =>
      rw [statement_looking_end] at hst
      cases hst
      rw [call, atPointer, find?_absent (by simpa using hbefore)]
    | cons entry after =>
      rw [statement_looking] at hst
      by_cases heq : token = entry.1
      · rw [if_pos heq] at hst
        cases hst
        rw [call, atPointer, find?_first hbefore heq]
      · rw [if_neg heq] at hst
        cases hst

/-- **A call that nobody disturbs is `call`.** -/
theorem call_of_alone {moved : E} {container container' : List (BitVec w × E)} {op : Op w E} {result : Result w E}
    (h : (storage w moved).Alone container (op, result) container') : call container op = (container', result) := by
  obtain ⟨c, loc, hvisits, hlast⟩ := h.induct (P := Visits moved container op) (visits_enter moved container op)
    fun hv hst => visits_goes hv hst
  exact visits_last hvisits hlast

/-! ## Any threads -/

theorem calls_concat (container : List (BitVec w × E)) (ops : List (Op w E)) (op : Op w E) :
    calls container (ops ++ [op]) = ((call (calls container ops).1 op).1,
      (calls container ops).2 ++ [(op, (call (calls container ops).1 op).2)]) := by
  induction ops generalizing container with
  | nil => rfl
  | cons first ops ih =>
    show ((calls (call container first).1 (ops ++ [op])).1,
      (first, (call container first).2) :: (calls (call container first).1 (ops ++ [op])).2) = _
    rw [ih]
    rfl

/-- Calls one after the other are `calls`. -/
theorem calls_of_serial {T : Type} {moved : E} {container container' : List (BitVec w × E)}
    {history : List (T × Op w E × Result w E)}
    (h : Run (storage w moved).Serial container history container') :
    calls container (history.map fun e => e.2.1) = (container', history.map Prod.snd) := by
  induction h with
  | nil => rfl
  | @snoc c c' history entry run step ih =>
    have hcall : call c entry.2.1 = (c', entry.2.2) := call_of_alone step
    rw [List.map_append, List.map_singleton, calls_concat, ih, hcall, List.map_append, List.map_singleton]

/-- **Whatever the threads do, the calls that have returned are calls one after the other**, in the order in which
they unlocked the mutex, which is the step in which they return: each result is the one that this call returns when nobody else calls anything, and where the
mutex is free the list is the one that these calls leave. It refines a map that chooses its own keys. -/
theorem threads_serial {T : Type} [DecidableEq T] {moved : E}
    {s : State T (List (BitVec w × E)) (Op w E) (Location w E) (Result w E)}
    (h : Reachable (storage w moved) [] s) :
    let history := (completed s.log).map Prod.snd
    let ops := history.map Prod.fst
    history = (calls [] ops).2 ∧ (s.owner = none → s.shared = (calls [] ops).1) ∧
      Run FreshMap.Step (fun _ => none) (history.map translate) (lookup (calls [] ops).1) := by
  intro history ops
  obtain ⟨before, hrun, hfree⟩ := h.serial
  have hcalls : calls [] ops = (before, history) := by
    show calls [] (((completed s.log).map Prod.snd).map Prod.fst) = _
    rw [List.map_map]
    exact calls_of_serial hrun
  have hsimulation := calls_simulation ops
  rw [hcalls] at hsimulation ⊢
  exact ⟨rfl, fun hnone => (hfree hnone).symm, hsimulation⟩

/-- Two threads push; the second one is first inside, and the first one waits for it. -/
def twoPushes : List (Act Bool (Op 8 Nat)) :=
  [.call false (.push 5), .call true (.push 6), .lock true, .run true, .run true, .lock false, .run false, .run false]

theorem threads_serial_two_pushes :
    ∃ s, Reachable (storage 8 0) [] s ∧ (completed s.log).map Prod.fst = [true, false] ∧
      s.shared = (calls [] (((completed s.log).map Prod.snd).map Prod.fst)).1 := by
  have hrun : (exec (step (storage 8 0)) (start []) twoPushes).map
      (fun s => (s.owner, (completed s.log).map Prod.fst)) = some (none, [true, false]) := by decide
  obtain ⟨s, hs, hend⟩ := Option.map_eq_some_iff.mp hrun
  obtain ⟨howner, hlog⟩ := Prod.mk.inj hend
  have hreach : Reachable (storage 8 0) [] s := ⟨_, run_of_exec hs⟩
  exact ⟨s, hreach, hlog, (threads_serial hreach).2.1 howner⟩

/-! ## No call hangs -/

/-- How many statements are left, at most. -/
def rank (container : List (BitVec w × E)) : Location w E → Nat
  | .pushing _ => container.length + 3
  | .searching _ _ iEntry => container.length - iEntry + 2
  | .placing _ _ _ => 1
  | .popping _ _ iEntry => container.length - iEntry + 2
  | .erasing _ _ => 1
  | .looking _ iEntry => container.length - iEntry + 1

theorem rank_statement {moved : E} {container container' : List (BitVec w × E)} {loc loc' : Location w E}
    (h : statement moved container loc = (container', .inl loc')) : rank container' loc' < rank container loc := by
  have hentry : ∀ {iEntry : Nat} {entry : BitVec w × E}, container[iEntry]? = some entry →
      iEntry < container.length := fun hi => (List.getElem?_eq_some_iff.mp hi).1
  unfold statement at h
  split at h
  · rw [Prod.mk.injEq, Sum.inl.injEq] at h
    obtain ⟨rfl, rfl⟩ := h
    split
    · show 1 < _
      rw [rank]
      omega
    · dsimp only
      split_ifs <;> simp [rank]
  · split at h
    · cases h
    · next entry hi =>
      have hlt := hentry hi
      split_ifs at h <;> cases h
      · simp [rank]
      · simp only [rank]
        omega
  · cases h
  · split at h
    · cases h
    · next entry hi =>
      have hlt := hentry hi
      split_ifs at h <;> cases h
      · simp [rank]
      · simp only [rank]
        omega
  · cases h
  · split at h
    · cases h
    · next entry hi =>
      have hlt := hentry hi
      split_ifs at h <;> cases h
      simp only [rank]
      omega

/-- **Every call of every thread can come to its end**, in every state that the threads can reach. -/
theorem threads_return {T : Type} [DecidableEq T] {moved : E}
    {s : State T (List (BitVec w × E)) (Op w E) (Location w E) (Result w E)}
    (h : Reachable (storage w moved) [] s) {t : T} (ht : s.phase t ≠ .outside) :
    ∃ acts s' op result log, exec (step (storage w moved)) s acts = some s' ∧
      s'.log = log ++ [.returned t op result] :=
  h.returns rank_statement ht

/-- The first thread waits for the second one, which is inside. -/
theorem threads_return_two_pushes :
    ∃ s acts s' op result log, exec (step (storage 8 0)) (start []) (twoPushes.take 3) = some s ∧
      exec (step (storage 8 0)) s acts = some s' ∧ s'.log = log ++ [.returned false op result] := by
  have hrun : (exec (step (storage 8 0)) (start []) (twoPushes.take 3)).map (fun s => s.phase false) =
      some (.waiting (.push 5)) := rfl
  obtain ⟨s, hs, hphase⟩ := Option.map_eq_some_iff.mp hrun
  have hcall : s.phase false ≠ .outside := by
    rw [hphase]
    intro hout
    cases hout
  have hreach : Reachable (storage 8 0) [] s := ⟨_, run_of_exec hs⟩
  obtain ⟨acts, s', op, result, log, hexec, hlog⟩ := threads_return hreach hcall
  exact ⟨s, acts, s', op, result, log, hs, hexec, hlog⟩

end Communique.Storage
