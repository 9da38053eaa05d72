import Communique.Storage.Refinement

/-!
# The storage fails only when every token is in use

* `push_ok_iff` : `push` succeeds exactly below `2 ^ w` entries (the pigeonhole on an ascending list);
* `calls_pop` : popping stored tokens leaves exactly the others;
* `calls_push_missing` : as many pushes as tokens are missing return just the missing tokens;
* **`push_fails_only_when_full`** : both, for every storage reached by calls from the empty one.
-/

namespace Communique.Storage
open Listing Transition

variable {w : Nat} {E : Type}

theorem card_tokens (w : Nat) : Fintype.card (BitVec w) = 2 ^ w := by
  rw [← FinEnum.card_bitVec w, FinEnum.card_eq_fintypeCard]

theorem full_iff {container : List (BitVec w × E)} (h : Ascending container) :
    container.length = 2 ^ w ↔ ∀ token, token ∈ keys container := by
  rw [← card_tokens, h.full_iff]

/-- `push` succeeds exactly when fewer than `2 ^ w` elements are stored. -/
theorem push_ok_iff {container : List (BitVec w × E)} (h : Ascending container) (newElement : E) :
    (∃ r, push (unsigned w) container newElement = .ok r) ↔ container.length < 2 ^ w := by
  have hle : container.length ≤ 2 ^ w := card_tokens w ▸ h.length_le
  have hfull := full_iff h
  cases hp : push (unsigned w) container newElement with
  | ok r =>
    obtain ⟨token, container'⟩ := r
    have hfresh := push_fresh h hp
    refine ⟨fun _ => lt_of_le_of_ne hle fun he => hfresh (hfull.mp he token), fun _ => ⟨_, rfl⟩⟩
  | error e =>
    have := hfull.mpr (push_error h hp)
    constructor
    · rintro ⟨r, hr⟩
      cases hr
    · omega

/-! ## Emptying and filling -/

/-- What the calls return, in order. -/
def results (container : List (BitVec w × E)) (ops : List (Op w E)) : List (Result w E) :=
  (calls container ops).2.map Prod.snd

theorem results_cons (container : List (BitVec w × E)) (op : Op w E) (ops : List (Op w E)) :
    results container (op :: ops) = (call container op).2 :: results (call container op).1 ops := rfl

theorem calls_cons (container : List (BitVec w × E)) (op : Op w E) (ops : List (Op w E)) :
    (calls container (op :: ops)).1 = (calls (call container op).1 ops).1 := rfl

/-- Popping stored tokens succeeds and leaves exactly the other tokens. -/
theorem calls_pop {container : List (BitVec w × E)} {tokens : List (BitVec w)} (h : Ascending container)
    (hnd : tokens.Nodup) (hs : ∀ token ∈ tokens, token ∈ keys container) :
    (∃ elements : List E, results container (tokens.map .pop) = elements.map .element) ∧
      ∀ token, token ∈ keys (calls container (tokens.map .pop)).1 ↔
        token ∈ keys container ∧ token ∉ tokens := by
  induction tokens generalizing container with
  | nil => exact ⟨⟨[], rfl⟩, fun token => by simp [calls]⟩
  | cons t tokens ih =>
    obtain ⟨ht, hnd⟩ := List.nodup_cons.mp hnd
    obtain ⟨element, hl⟩ : ∃ element, lookup container t = some element :=
      Option.ne_none_iff_exists'.mp fun hn => lookup_eq_none.mp hn (hs t List.mem_cons_self)
    have hcall : call container (.pop t) = (eraseKey container t, .element element) := by
      simp only [call, pop, popInto_eq, hl, Option.map_some]
    have hs' : ∀ token ∈ tokens, token ∈ keys (eraseKey container t) := fun token htok =>
      h.keys_eraseKey.mpr ⟨hs token (List.mem_cons_of_mem _ htok), fun he => ht (he ▸ htok)⟩
    obtain ⟨⟨elements, hres⟩, hkeys⟩ := ih (h.eraseKey t) hnd hs'
    rw [List.map_cons, results_cons, calls_cons, hcall]
    refine ⟨⟨element :: elements, by rw [hres, List.map_cons]⟩, fun token => ?_⟩
    rw [hkeys, h.keys_eraseKey, List.mem_cons]
    tauto

/-- As many pushes as tokens are missing succeed, return just the missing tokens and fill the storage. -/
theorem calls_push_missing {container : List (BitVec w × E)} {missing : List (BitVec w)}
    {elements : List E} (h : Ascending container) (hnd : missing.Nodup)
    (hm : ∀ token, token ∈ missing ↔ token ∉ keys container) (hlen : elements.length = missing.length) :
    (∃ tokens : List (BitVec w), results container (elements.map .push) = tokens.map .token ∧ tokens.Perm missing) ∧
      ∀ token, token ∈ keys (calls container (elements.map .push)).1 := by
  induction elements generalizing container missing with
  | nil =>
    obtain rfl := List.eq_nil_of_length_eq_zero hlen.symm
    exact ⟨⟨[], rfl, List.Perm.refl _⟩, fun token => by simpa [calls] using hm token⟩
  | cons e elements ih =>
    cases hp : push (unsigned w) container e with
    | error x =>
      -- a token is missing, so the storage is not full
      obtain ⟨token, htok⟩ : ∃ token, token ∈ missing :=
        List.exists_mem_of_ne_nil _ (List.ne_nil_of_length_pos (by rw [← hlen]; simp))
      exact absurd (push_error h hp token) ((hm token).mp htok)
    | ok r =>
      obtain ⟨token, container'⟩ := r
      have hcall : call container (.push e) = (container', .token token) := by simp only [call, hp]
      have htok : token ∈ missing := (hm token).mpr (push_fresh h hp)
      have hkeys : ∀ t, t ∈ keys container' ↔ t = token ∨ t ∈ keys container := fun t => by
        have hperm := ((push_perm h hp).map Prod.fst).mem_iff (a := t)
        rw [List.map_cons, List.mem_cons] at hperm
        exact hperm
      have hm' : ∀ t, t ∈ missing.erase token ↔ t ∉ keys container' := fun t => by
        rw [hnd.mem_erase_iff, hkeys, hm]
        tauto
      have hlen' : elements.length = (missing.erase token).length := by
        rw [List.length_erase_of_mem htok, ← hlen]
        simp
      obtain ⟨⟨tokens, hres, hperm⟩, hall⟩ := ih (push_ascending h hp) (hnd.erase token) hm' hlen'
      rw [List.map_cons, results_cons, calls_cons, hcall]
      refine ⟨⟨token :: tokens, by rw [hres, List.map_cons], ?_⟩, hall⟩
      exact (hperm.cons token).trans (List.perm_cons_erase htok).symm

/-- **`push` fails only when every token is in use**: after any calls on the empty storage `push`
succeeds exactly below `2 ^ w` elements and changes nothing when it throws; and after popping any tokens
of a full storage exactly that many pushes succeed, with just these tokens. -/
theorem push_fails_only_when_full (w : Nat) (E : Type) (ops : List (Op w E)) :
    (∀ newElement, (∃ r, push (unsigned w) (calls [] ops).1 newElement = .ok r) ↔
        (calls [] ops).1.length < 2 ^ w) ∧
      (∀ newElement e, (call (calls [] ops).1 (.push newElement)).2 = .exception e →
        (call (calls [] ops).1 (.push newElement)).1 = (calls [] ops).1) ∧
      ((calls [] ops).1.length = 2 ^ w → ∀ (tokens : List (BitVec w)) (elements : List E),
        tokens.Nodup → elements.length = tokens.length →
        (∃ popped : List E, results (calls [] ops).1 (tokens.map .pop) = popped.map .element) ∧
        (∃ pushed : List (BitVec w), results (calls (calls [] ops).1 (tokens.map .pop)).1 (elements.map .push) =
          pushed.map .token ∧ pushed.Perm tokens) ∧
        ∀ newElement, ∃ e, push (unsigned w)
          (calls (calls (calls [] ops).1 (tokens.map .pop)).1 (elements.map .push)).1 newElement =
            .error e) := by
  have h : Ascending (calls ([] : List (BitVec w × E)) ops).1 := calls_ascending ascending_nil ops
  generalize (calls [] ops).1 = container at h
  refine ⟨push_ok_iff h, fun newElement e he => ?_, fun hfull tokens elements hnd hlen => ?_⟩
  · cases hp : push (unsigned w) container newElement with
    | ok r =>
      simp only [call, hp] at he
      cases he
    | error x => simp only [call, hp]
  · have hall := (full_iff h).mp hfull
    obtain ⟨hpopped, hleft⟩ := calls_pop h hnd (fun token _ => hall token)
    have hmissing : ∀ token, token ∈ tokens ↔
        token ∉ keys (calls container (tokens.map .pop)).1 := fun token => by
      rw [hleft, not_and_not_right]
      exact ⟨fun ht _ => ht, fun ht => ht (hall token)⟩
    have h' := calls_ascending h (tokens.map .pop)
    obtain ⟨hpushed, hrefilled⟩ := calls_push_missing h' hnd hmissing hlen
    have h'' := calls_ascending h' (elements.map .push)
    refine ⟨hpopped, hpushed, fun newElement => ?_⟩
    have hno := (push_ok_iff h'' newElement).not.mpr (by rw [(full_iff h'').mpr hrefilled]; omega)
    cases hp : push (unsigned w) (calls (calls container (tokens.map .pop)).1
        (elements.map .push)).1 newElement with
    | ok r => exact absurd ⟨r, hp⟩ hno
    | error e => exact ⟨e, rfl⟩

/-- A full storage of two tokens gives a popped one out again. -/
theorem refill_two_tokens :
    ∃ pushed : List (BitVec 1), results (calls (calls [] [.push 5, .push 6]).1 [.pop 0]).1 [.push 7] =
      pushed.map (Result.token (E := Nat)) ∧ pushed.Perm [0] :=
  ((push_fails_only_when_full 1 Nat [.push 5, .push 6]).2.2 (by decide) [0] [7] (by decide) rfl).2.1

end Communique.Storage
