import Communique.Storage.Tokens
import Communique.Lib.FreshMap

/-!
# The storage refines a finite map that chooses its own keys

* `Op`, `Result`, `call`, `calls` : the calls on a storage, their results, and sequences of them;
* `getFreeToken_unbounded` : `getFreeToken` over the `w`-bit tokens agrees with the one over the
  integers, so no token it returns is a wrapped one;
* `call_refines` : one call is one step of `FreshMap` on the map that the list stores;
* **`calls_refine_map`** : every sequence of calls from the empty storage.
-/

namespace Communique.Storage
open Listing Transition

variable {w : Nat} {E : Type}

/-! ## Calls -/

inductive Op (w : Nat) (E : Type)
  | push (newElement : E)
  | pop (token : BitVec w)
  | popInto (token : BitVec w)
  | atPointer (token : BitVec w)

inductive Result (w : Nat) (E : Type)
  | token (token : BitVec w)
  | element (element : E)
  | exception (e : Exn)
  | notFound

/-- One call: the list it leaves and what it returns. -/
def call (container : List (BitVec w × E)) : Op w E → List (BitVec w × E) × Result w E
  | .push newElement => match push (unsigned w) container newElement with
    | .ok (token, container') => (container', .token token)
    | .error e => (container, .exception e)
  | .pop token => match pop container token with
    | .ok (element, container') => (container', .element element)
    | .error e => (container, .exception e)
  | .popInto token => match popInto container token with
    | some (element, container') => (container', .element element)
    | none => (container, .notFound)
  | .atPointer token => match atPointer container token with
    | some element => (container, .element element)
    | none => (container, .notFound)

/-- A sequence of calls: the list it leaves and the calls with their results. -/
def calls (container : List (BitVec w × E)) :
    List (Op w E) → List (BitVec w × E) × List (Op w E × Result w E)
  | [] => (container, [])
  | op :: ops =>
    let (container', result) := call container op
    let (container'', history) := calls container' ops
    (container'', (op, result) :: history)

/-- The step relation of `call`. -/
def Call (container : List (BitVec w × E)) (l : Op w E × Result w E) (container' : List (BitVec w × E)) :
    Prop :=
  call container l.1 = (container', l.2)

theorem calls_run (container : List (BitVec w × E)) (ops : List (Op w E)) :
    Run Call container (calls container ops).2 (calls container ops).1 := by
  induction ops generalizing container with
  | nil => exact Run.nil container
  | cons op ops ih => exact Run.cons (l := (op, (call container op).2)) rfl (ih _)

/-! ## No returned token has wrapped -/

/-- The list with its tokens read as integers. -/
def integers (container : List (BitVec w × E)) : List (ℤ × E) :=
  container.map (fun p => ((p.1.toNat : ℤ), p.2))

theorem toNat_int_eq {t u : BitVec w} : (t.toNat : ℤ) = u.toNat ↔ t = u := by
  rw [Int.natCast_inj, BitVec.toNat_inj]

theorem findGap_unbounded {rest : List (BitVec w × E)} (token : BitVec w) (i : Nat) (h : Ascending rest) :
    findGap (unbounded w) (token.toNat : ℤ) (integers rest) i =
      (findGap (unsigned w) token rest i).map (fun gap => ((gap.1.toNat : ℤ), gap.2)) := by
  induction rest generalizing token i with
  | nil => rfl
  | cons entry rest ih =>
    obtain ⟨hlt, hrest⟩ := ascending_cons.mp h
    by_cases heq : token = entry.1
    · have heqz : (token.toNat : ℤ) = entry.1.toNat := toNat_int_eq.mpr heq
      cases rest with
      | nil => simp [integers, findGap, heq]
      | cons q rest =>
        -- the next entry is above `token`, so the increment does not wrap
        have hq : token < q.1 := heq ▸ hlt q List.mem_cons_self
        have hincr : (unbounded w).incr (token.toNat : ℤ) = ((unsigned w).incr token).toNat := by
          rw [incr_toNat hq]
          rfl
        rw [integers, List.map_cons, findGap, findGap, if_neg (not_not_intro heqz),
          if_neg (not_not_intro heq), hincr]
        exact ih _ _ hrest
    · have hne : (token.toNat : ℤ) ≠ entry.1.toNat := fun he => heq (toNat_int_eq.mp he)
      rw [integers, List.map_cons, findGap, findGap, if_pos hne, if_pos heq]
      rfl

theorem max_unbounded (t : BitVec w) : (t.toNat : ℤ) = (unbounded w).max ↔ t = (unsigned w).max := by
  have hcast : (unbounded w).max = ((unsigned w).max.toNat : ℤ) := by
    have := Nat.two_pow_pos w
    rw [unsigned, BitVec.toNat_allOnes, unbounded, Int.ofNat_sub this]
    simp
  rw [hcast, toNat_int_eq]

theorem min_unbounded (t : BitVec w) : (t.toNat : ℤ) = (unbounded w).min ↔ t = (unsigned w).min := by
  have hcast : (unbounded w).min = ((unsigned w).min.toNat : ℤ) := by simp [unsigned, unbounded]
  rw [hcast, toNat_int_eq]

/-- **Over the integers, where nothing wraps, `getFreeToken` returns the same token and place.** -/
theorem getFreeToken_unbounded {container : List (BitVec w × E)} (h : Ascending container) :
    getFreeToken (unbounded w) (integers container) =
      (getFreeToken (unsigned w) container).map (fun r => ((r.1.toNat : ℤ), r.2)) := by
  cases container with
  | nil => simp [integers, getFreeToken, unbounded, unsigned, Except.map]
  | cons front rest =>
    have hback : (integers (front :: rest)).getLast (by simp [integers]) =
        ((((front :: rest).getLast (List.cons_ne_nil _ _)).1.toNat : ℤ),
          ((front :: rest).getLast (List.cons_ne_nil _ _)).2) := by
      simp only [integers, List.getLast_map]
    have hlen : (integers (front :: rest)).length = (front :: rest).length := by simp [integers]
    generalize hb : (front :: rest).getLast (List.cons_ne_nil _ _) = back at hback
    simp only [integers, List.map_cons] at hback hlen
    simp only [integers, List.map_cons, getFreeToken, hback, hlen, hb, ne_eq, max_unbounded,
      min_unbounded]
    by_cases hmax : back.1 = (unsigned w).max
    · rw [if_neg (not_not_intro hmax), if_neg (not_not_intro hmax)]
      by_cases hmin : front.1 = (unsigned w).min
      · rw [if_neg (not_not_intro hmin), if_neg (not_not_intro hmin)]
        have hgap := findGap_unbounded front.1 0 h
        rw [integers, List.map_cons] at hgap
        rw [hgap]
        cases findGap (unsigned w) front.1 (front :: rest) 0 <;> rfl
      · rw [if_pos hmin, if_pos hmin, Except.map, decr_toNat (min_lt_of_ne hmin)]
        have hpos := BitVec.lt_def.mp (min_lt_of_ne hmin)
        simp only [unbounded, Except.ok.injEq, Prod.mk.injEq, and_true]
        omega
    · rw [if_pos hmax, if_pos hmax, Except.map, incr_toNat (lt_max_of_ne hmax)]
      rfl

/-! ## Refinement -/

/-- A call with its result, as a call on the map. -/
def translate : Op w E × Result w E → FreshMap.Call (BitVec w) E × FreshMap.Reply (BitVec w) E
  | (op, result) => (onMap op, ofMap result)
where
  onMap : Op w E → FreshMap.Call (BitVec w) E
    | .push newElement => .put newElement
    | .pop token => .take token
    | .popInto token => .take token
    | .atPointer token => .get token
  ofMap : Result w E → FreshMap.Reply (BitVec w) E
    | .token token => .key token
    | .element element => .value element
    | .exception _ => .failed
    | .notFound => .failed

theorem lookup_push {container container' : List (BitVec w × E)} {newElement : E} {token : BitVec w}
    (h : Ascending container) (hp : push (unsigned w) container newElement = .ok (token, container')) :
    lookup container' = Function.update (lookup container) token (some newElement) := by
  have h' := push_ascending h hp
  funext k
  by_cases hk : k = token
  · subst hk
    rw [Function.update_self, ← h'.mem_iff_lookup]
    exact (push_perm h hp).mem_iff.mpr List.mem_cons_self
  · rw [Function.update_of_ne hk]
    refine Option.ext fun v => ?_
    rw [← h'.mem_iff_lookup, ← h.mem_iff_lookup, (push_perm h hp).mem_iff]
    simp [hk]

theorem lookup_eraseKey {container : List (BitVec w × E)} (h : Ascending container) (token : BitVec w) :
    lookup (eraseKey container token) = Function.update (lookup container) token none := by
  funext k
  refine Option.ext fun v => ?_
  rw [← (h.eraseKey token).mem_iff_lookup, h.mem_eraseKey, h.mem_iff_lookup]
  by_cases hk : k = token
  · simp [hk]
  · simp [hk]

/-- One call on an ascending list is one step on the map that the list stores. -/
theorem call_refines {container container' : List (BitVec w × E)} {l : Op w E × Result w E}
    (h : Ascending container) (hc : Call container l container') :
    FreshMap.Step (lookup container) (translate l) (lookup container') ∧ Ascending container' := by
  obtain ⟨op, result⟩ := l
  cases op with
  | push newElement =>
    simp only [Call, call] at hc
    cases hp : push (unsigned w) container newElement with
    | ok r =>
      obtain ⟨token, c⟩ := r
      rw [hp] at hc
      obtain ⟨rfl, rfl⟩ := Prod.mk.inj hc
      rw [lookup_push h hp]
      exact ⟨.put (lookup_eq_none.mpr (push_fresh h hp)), push_ascending h hp⟩
    | error e =>
      rw [hp] at hc
      obtain ⟨rfl, rfl⟩ := Prod.mk.inj hc
      exact ⟨.putFailed fun k hk => lookup_eq_none.mp hk (push_error h hp k), h⟩
  | pop token =>
    simp only [Call, call, pop, popInto_eq] at hc
    cases hl : lookup container token with
    | some element =>
      rw [hl] at hc
      obtain ⟨rfl, rfl⟩ := Prod.mk.inj hc
      rw [lookup_eraseKey h]
      exact ⟨.take hl, h.eraseKey token⟩
    | none =>
      rw [hl] at hc
      obtain ⟨rfl, rfl⟩ := Prod.mk.inj hc
      exact ⟨.takeFailed hl, h⟩
  | popInto token =>
    simp only [Call, call, popInto_eq] at hc
    cases hl : lookup container token with
    | some element =>
      rw [hl] at hc
      obtain ⟨rfl, rfl⟩ := Prod.mk.inj hc
      rw [lookup_eraseKey h]
      exact ⟨.take hl, h.eraseKey token⟩
    | none =>
      rw [hl] at hc
      obtain ⟨rfl, rfl⟩ := Prod.mk.inj hc
      exact ⟨.takeFailed hl, h⟩
  | atPointer token =>
    simp only [Call, call, atPointer_eq] at hc
    cases hl : lookup container token with
    | some element =>
      rw [hl] at hc
      obtain ⟨rfl, rfl⟩ := Prod.mk.inj hc
      exact ⟨.get hl, h⟩
    | none =>
      rw [hl] at hc
      obtain ⟨rfl, rfl⟩ := Prod.mk.inj hc
      exact ⟨.getFailed hl, h⟩

theorem calls_ascending {container : List (BitVec w × E)} (h : Ascending container) (ops : List (Op w E)) :
    Ascending (calls container ops).1 :=
  (calls_run container ops).invariant (P := Ascending) (fun hs hc => (call_refines hs hc).2) h

/-- The element of the last `push` of the history that returned the token. -/
def lastPush (history : List (Op w E × Result w E)) (token : BitVec w) : Option E :=
  FreshMap.lastPut (history.map translate) token

/-- The state after calls on the empty storage is a run of the map, and what is stored under a token is
the element of the last `push` that returned it. -/
theorem calls_simulation (ops : List (Op w E)) :
    Run FreshMap.Step (fun _ => none) ((calls [] ops).2.map translate) (lookup (calls [] ops).1) := by
  obtain ⟨m, hrun, hm, -⟩ := (calls_run ([] : List (BitVec w × E)) ops).simulation translate
    (R := fun container m => m = lookup container ∧ Ascending container)
    (fun hr hc => ⟨_, hr.1 ▸ (call_refines hr.2 hc).1, rfl, (call_refines hr.2 hc).2⟩)
    (show (fun _ => none) = lookup [] ∧ _ from ⟨rfl, ascending_nil⟩)
  exact hm ▸ hrun

theorem lookup_calls {ops : List (Op w E)} {token : BitVec w} {element : E}
    (h : lookup (calls [] ops).1 token = some element) : lastPush (calls [] ops).2 token = some element :=
  FreshMap.run_lastPut (calls_simulation ops) h

/-! ## What each call may return -/

/-- `push` returned `token`, which the same computation over the integers returns as well. -/
def NoWrap (container : List (BitVec w × E)) (token : BitVec w) : Prop :=
  ∃ iterator, getFreeToken (unsigned w) container = .ok (token, iterator) ∧
    getFreeToken (unbounded w) (integers container) = .ok ((token.toNat : ℤ), iterator)

/-- The token is stored with the element of the last `push` that returned it. -/
def Stored (container : List (BitVec w × E)) (history : List (Op w E × Result w E)) (token : BitVec w)
    (element : E) : Prop :=
  (token, element) ∈ container ∧ lastPush history token = some element

/-- What a call on `container`, reached through `history`, may return and leave. -/
def Meets (container : List (BitVec w × E)) (history : List (Op w E × Result w E)) :
    Op w E → List (BitVec w × E) × Result w E → Prop
  | .push newElement, (container', .token token) =>
    token ∉ keys container ∧ (∀ p, p ∈ container' ↔ p = (token, newElement) ∨ p ∈ container) ∧
      NoWrap container token
  | .push _, (container', .exception _) => (∀ token, token ∈ keys container) ∧ container' = container
  | .pop token, (container', .element element) | .popInto token, (container', .element element) =>
    Stored container history token element ∧ ∀ p, p ∈ container' ↔ p ∈ container ∧ p.1 ≠ token
  | .pop token, (container', .exception _) | .popInto token, (container', .notFound) =>
    token ∉ keys container ∧ container' = container
  | .atPointer token, (container', .element element) =>
    Stored container history token element ∧ container' = container
  | .atPointer token, (container', .notFound) => token ∉ keys container ∧ container' = container
  | _, _ => False

theorem push_noWrap {container container' : List (BitVec w × E)} {newElement : E} {token : BitVec w}
    (h : Ascending container) (hp : push (unsigned w) container newElement = .ok (token, container')) :
    NoWrap container token := by
  unfold push at hp
  split at hp
  · cases hp
  · next t iterator hg =>
    rw [Except.ok.injEq, Prod.mk.injEq] at hp
    obtain ⟨rfl, -⟩ := hp
    refine ⟨iterator, hg, ?_⟩
    rw [getFreeToken_unbounded h, hg]
    rfl

/-- **`UniqueTokenStorage` refines a finite map that chooses its own keys**: after any calls on the empty
storage the list ascends strictly and is the listing of a state of the map, reached by the same calls,
and the next call returns and leaves what `Meets` says. -/
theorem calls_refine_map (w : Nat) (E : Type) (ops : List (Op w E)) :
    Ascending (calls [] ops).1 ∧
      Run FreshMap.Step (fun _ => none) ((calls [] ops).2.map translate) (lookup (calls [] ops).1) ∧
      (∀ token element, (token, element) ∈ (calls [] ops).1 ↔ lookup (calls [] ops).1 token = some element) ∧
      ∀ op, Meets (calls [] ops).1 (calls [] ops).2 op (call (calls [] ops).1 op) := by
  have h : Ascending (calls [] ops).1 := calls_ascending ascending_nil ops
  refine ⟨h, calls_simulation ops, fun token element => h.mem_iff_lookup, fun op => ?_⟩
  have hstored : ∀ {token element}, lookup (calls [] ops).1 token = some element →
      Stored (calls [] ops).1 (calls [] ops).2 token element := fun hl =>
    ⟨h.mem_iff_lookup.mpr hl, lookup_calls hl⟩
  cases op with
  | push newElement =>
    cases hp : push (unsigned w) (calls [] ops).1 newElement with
    | ok r =>
      simp only [call, hp]
      refine ⟨push_fresh h hp, fun p => ?_, push_noWrap h hp⟩
      rw [(push_perm h hp).mem_iff, List.mem_cons]
    | error e =>
      simp only [call, hp]
      exact ⟨push_error h hp, rfl⟩
  | pop token =>
    simp only [call, pop, popInto_eq]
    cases hl : lookup (calls [] ops).1 token with
    | some element => exact ⟨hstored hl, fun p => h.mem_eraseKey⟩
    | none => exact ⟨lookup_eq_none.mp hl, rfl⟩
  | popInto token =>
    simp only [call, popInto_eq]
    cases hl : lookup (calls [] ops).1 token with
    | some element => exact ⟨hstored hl, fun p => h.mem_eraseKey⟩
    | none => exact ⟨lookup_eq_none.mp hl, rfl⟩
  | atPointer token =>
    simp only [call, atPointer_eq]
    cases hl : lookup (calls [] ops).1 token with
    | some element => exact ⟨hstored hl, rfl⟩
    | none => exact ⟨lookup_eq_none.mp hl, rfl⟩

end Communique.Storage
