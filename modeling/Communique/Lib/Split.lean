import Mathlib.Data.List.Forall2

/-!
# Pieces of a list, cut at every separator

`List.splitOn` cuts at every separator and keeps the empty pieces, at both ends too.

* `length_splitOn` : one piece more than there are separators;
* `chomp`, `chompAny` : one separator less at the end, where there is one separator and where there are several;
* `forall₂_splitOn_concat` : the pieces of two lists with a separator at the end;
* `CutAt` : pieces without a separator that make the list with the separators put back;
* **`cutAt_iff`** : the pieces of `List.splitOnP` are the only ones;
* `splitOnP_chompAny` : the piece behind a separator at the end.
-/

namespace Split

variable {α : Type} [DecidableEq α]

def EndsIn (sep : α) (xs : List α) : Prop := xs.getLast? = some sep

instance (sep : α) (xs : List α) : Decidable (EndsIn sep xs) := inferInstanceAs (Decidable (_ = _))

/-- The list without a separator at its end. -/
def chomp (sep : α) (xs : List α) : List α := if EndsIn sep xs then xs.dropLast else xs

variable {sep : α} {xs ys : List α}

theorem chomp_of_not_endsIn (h : ¬ EndsIn sep xs) : chomp sep xs = xs := if_neg h

omit [DecidableEq α] in
theorem endsIn_iff : EndsIn sep xs ↔ ∃ ys, xs = ys ++ [sep] := by
  unfold EndsIn
  rw [List.getLast?_eq_some_iff]

theorem chomp_concat (sep : α) (ys : List α) : chomp sep (ys ++ [sep]) = ys := by
  have h : EndsIn sep (ys ++ [sep]) := endsIn_iff.mpr ⟨ys, rfl⟩
  rw [chomp, if_pos h, List.dropLast_concat]

omit [DecidableEq α] in
/-- The end of a list is that of what stands behind a separator, unless nothing does. -/
theorem endsIn_append_cons (hys : ys ≠ []) : EndsIn sep (xs ++ sep :: ys) ↔ EndsIn sep ys := by
  obtain ⟨zs, z, rfl⟩ := (List.eq_nil_or_concat' ys).resolve_left hys
  unfold EndsIn
  rw [← List.cons_append, ← List.append_assoc, List.getLast?_concat, List.getLast?_concat]

omit [DecidableEq α] in
/-- Two lists, by the last entries of both. -/
theorem forall₂_concat {R : α → α → Prop} {x y : α} :
    List.Forall₂ R (xs ++ [x]) (ys ++ [y]) ↔ R x y ∧ List.Forall₂ R xs ys := by
  rw [← List.forall₂_reverse_iff, List.reverse_concat, List.reverse_concat, List.forall₂_cons,
    List.forall₂_reverse_iff]

theorem splitOn_concat (xs : List α) (sep : α) : (xs ++ [sep]).splitOn sep = xs.splitOn sep ++ [[]] := by
  rw [List.splitOn_append_cons_self, List.splitOn_nil]

/-- The cut at the last separator. -/
theorem splitOn_append_cons_of_not_mem_right (h : sep ∉ ys) :
    (xs ++ sep :: ys).splitOn sep = xs.splitOn sep ++ [ys] := by
  rw [List.splitOn_append_cons_self, List.splitOn_eq_singleton h]

omit [DecidableEq α] in
theorem exists_last_separator (h : sep ∈ xs) : ∃ ys zs, xs = ys ++ sep :: zs ∧ sep ∉ zs := by
  obtain ⟨ys, zs, heq, hys⟩ := List.eq_append_cons_of_mem (List.mem_reverse.mpr h)
  refine ⟨zs.reverse, ys.reverse, ?_, fun hmem => hys (List.mem_reverse.mp hmem)⟩
  rw [← List.reverse_reverse xs, heq]
  simp

omit [DecidableEq α] in
theorem endsIn_append_cons_iff (h : sep ∉ ys) : EndsIn sep (xs ++ sep :: ys) ↔ ys = [] := by
  constructor
  · intro hends
    by_contra hys
    rw [endsIn_append_cons hys] at hends
    obtain ⟨zs, rfl⟩ := endsIn_iff.mp hends
    simp at h
  · rintro rfl
    exact endsIn_iff.mpr ⟨xs, rfl⟩

/-- The pieces of two lists that both end in a separator. -/
theorem forall₂_splitOn_concat {R : List α → List α → Prop} (hnil : R [] []) :
    List.Forall₂ R ((xs ++ [sep]).splitOn sep) ((ys ++ [sep]).splitOn sep) ↔
      List.Forall₂ R (xs.splitOn sep) (ys.splitOn sep) := by
  rw [splitOn_concat, splitOn_concat, forall₂_concat]
  exact and_iff_right hnil

/-- One piece more than there are separators. -/
theorem length_splitOn (sep : α) (xs : List α) : (xs.splitOn sep).length = xs.count sep + 1 := by
  induction xs with
  | nil => rw [List.splitOn_nil, List.count_nil, List.length_singleton]
  | cons x xs ih =>
    rw [List.splitOn_cons_eq_if_modifyHead, List.count_cons]
    split
    · rw [List.length_cons, ih]
    · rw [List.length_modifyHead, ih]

/-- The pieces of two lists, where the second ends in a separator. -/
theorem forall₂_splitOn_concat_right {R : List α → List α → Prop} :
    List.Forall₂ R (xs.splitOn sep) ((ys ++ [sep]).splitOn sep) ↔
      ∃ zs piece, xs = zs ++ sep :: piece ∧ sep ∉ piece ∧ R piece [] ∧
        List.Forall₂ R (zs.splitOn sep) (ys.splitOn sep) := by
  rw [splitOn_concat]
  constructor
  · intro h
    have hsep : sep ∈ xs := by
      have hlength := h.length_eq
      rw [List.length_append, length_splitOn, length_splitOn, List.length_singleton] at hlength
      apply List.count_pos_iff.mp
      omega
    obtain ⟨zs, piece, rfl, hpiece⟩ := exists_last_separator hsep
    rw [splitOn_append_cons_of_not_mem_right hpiece, forall₂_concat] at h
    exact ⟨zs, piece, rfl, hpiece, h⟩
  · rintro ⟨zs, piece, rfl, hpiece, h⟩
    rw [splitOn_append_cons_of_not_mem_right hpiece, forall₂_concat]
    exact h

/-! ## Any of several separators -/

section Predicate
variable (p : α → Bool)

omit [DecidableEq α]

/-- The pieces with the separators put back between them. -/
def putBack : List (List α) → List α → List α
  | pieces, [] => pieces.flatten
  | [], _ :: _ => []
  | piece :: pieces, sep :: seps => piece ++ sep :: putBack pieces seps

/-- One piece more than there are separators, none of these in a piece, and together they are the list. -/
structure CutAt (xs : List α) (pieces : List (List α)) : Prop where
  length : pieces.length = xs.countP p + 1
  free : ∀ piece ∈ pieces, ∀ x ∈ piece, p x = false
  together : putBack pieces (xs.filter p) = xs

variable {p}

theorem putBack_modifyHead (x : α) {pieces : List (List α)} (h : pieces ≠ []) (seps : List α) :
    putBack (pieces.modifyHead (x :: ·)) seps = x :: putBack pieces seps := by
  obtain ⟨piece, pieces, rfl⟩ := List.exists_cons_of_ne_nil h
  cases seps with
  | nil => rfl
  | cons sep seps => rfl

theorem cutAt_splitOnP (p : α → Bool) (xs : List α) : CutAt p xs (xs.splitOnP p) := by
  induction xs with
  | nil => exact ⟨rfl, by simp, rfl⟩
  | cons x xs ih =>
    rw [List.splitOnP_cons_eq_if_modifyHead]
    split
    · next hx =>
      refine ⟨?_, ?_, ?_⟩
      · rw [List.length_cons, ih.length, List.countP_cons_of_pos hx]
      · intro piece hpiece
        rcases List.mem_cons.mp hpiece with rfl | hpiece
        · simp
        · exact ih.free piece hpiece
      · rw [List.filter_cons_of_pos hx, putBack, ih.together, List.nil_append]
    · next hx =>
      refine ⟨?_, ?_, ?_⟩
      · rw [List.length_modifyHead, ih.length, List.countP_cons_of_neg hx]
      · obtain ⟨piece, pieces, hpieces⟩ := List.exists_cons_of_ne_nil (List.splitOnP_ne_nil p xs)
        have hfree := ih.free
        rw [hpieces] at hfree ⊢
        simp only [List.modifyHead_cons, List.forall_mem_cons] at hfree ⊢
        exact ⟨⟨(Bool.not_eq_true _).mp hx, hfree.1⟩, hfree.2⟩
      · rw [List.filter_cons_of_neg hx, putBack_modifyHead x (List.splitOnP_ne_nil p xs), ih.together]

/-- Pieces without a separator are those between the separators that are put back. -/
theorem splitOnP_putBack {pieces : List (List α)} {seps : List α} (hlength : pieces.length = seps.length + 1)
    (hpieces : ∀ piece ∈ pieces, ∀ x ∈ piece, p x = false) (hseps : ∀ sep ∈ seps, p sep = true) :
    (putBack pieces seps).splitOnP p = pieces := by
  induction seps generalizing pieces with
  | nil =>
    obtain ⟨piece, rfl⟩ := List.length_eq_one_iff.mp hlength
    have hfree := hpieces piece (List.mem_singleton_self _)
    rw [putBack, List.flatten_singleton, List.splitOnP_eq_singleton hfree]
  | cons sep seps ih =>
    obtain ⟨piece, pieces, rfl⟩ := List.exists_cons_of_length_eq_add_one hlength
    rw [List.forall_mem_cons] at hpieces hseps
    rw [putBack, List.splitOnP_append_cons_of_forall_mem hpieces.1 sep hseps.1,
      ih (Nat.succ.inj hlength) hpieces.2 hseps.2]

/-- There is one way to cut the list. -/
theorem cutAt_iff {xs : List α} {pieces : List (List α)} : CutAt p xs pieces ↔ pieces = xs.splitOnP p := by
  constructor
  · intro h
    have hlength : pieces.length = (xs.filter p).length + 1 := by
      rw [h.length, List.countP_eq_length_filter]
    have hcut := splitOnP_putBack hlength h.free fun sep hsep => (List.mem_filter.mp hsep).2
    rw [h.together] at hcut
    exact hcut.symm
  · rintro rfl
    exact cutAt_splitOnP p xs

/-! ## A separator at the end -/

def EndsInAny (p : α → Bool) (xs : List α) : Prop := xs.getLast?.any p = true

instance (p : α → Bool) (xs : List α) : Decidable (EndsInAny p xs) := inferInstanceAs (Decidable (_ = _))

/-- The list without a separator at its end. -/
def chompAny (p : α → Bool) (xs : List α) : List α := if EndsInAny p xs then xs.dropLast else xs

variable {xs ys : List α} {x : α}

theorem endsInAny_concat : EndsInAny p (xs ++ [x]) ↔ p x = true := by
  unfold EndsInAny
  rw [List.getLast?_concat, Option.any_some]

theorem exists_concat_of_endsInAny (h : EndsInAny p xs) : ∃ ys y, xs = ys ++ [y] ∧ p y = true := by
  obtain rfl | ⟨ys, y, rfl⟩ := List.eq_nil_or_concat' xs
  · exact absurd h (by simp [EndsInAny])
  · exact ⟨ys, y, rfl, endsInAny_concat.mp h⟩

theorem chompAny_concat (hx : p x = true) : chompAny p (xs ++ [x]) = xs := by
  rw [chompAny, if_pos (endsInAny_concat.mpr hx), List.dropLast_concat]

theorem chompAny_of_free (h : ∀ x ∈ xs, p x = false) : chompAny p xs = xs := by
  apply if_neg
  intro hends
  obtain ⟨ys, y, rfl, hy⟩ := exists_concat_of_endsInAny hends
  have hfree := h y (by simp)
  rw [hy] at hfree
  cases hfree

/-- The end of a list is that of what stands behind one of its entries, unless nothing does. -/
theorem chompAny_append_cons (hys : ys ≠ []) : chompAny p (xs ++ x :: ys) = xs ++ x :: chompAny p ys := by
  obtain ⟨zs, z, rfl⟩ := (List.eq_nil_or_concat' ys).resolve_left hys
  have hassoc : xs ++ x :: (zs ++ [z]) = (xs ++ x :: zs) ++ [z] := by
    rw [List.append_assoc, List.cons_append]
  unfold chompAny
  rw [hassoc]
  simp only [endsInAny_concat, List.dropLast_concat]
  split
  · rfl
  · exact hassoc.symm

/-- The piece behind a separator at the end is lost, and no other. -/
theorem splitOnP_chompAny : (chompAny p xs).splitOnP p = xs.splitOnP p ↔ ¬ EndsInAny p xs := by
  constructor
  · intro heq hends
    obtain ⟨ys, y, rfl, hy⟩ := exists_concat_of_endsInAny hends
    have hlength := congrArg List.length heq
    rw [chompAny_concat hy, List.splitOnP_append_cons ys [] hy, List.length_append] at hlength
    simp at hlength
  · intro hends
    rw [chompAny, if_neg hends]

end Predicate

/-! ## One separator -/

theorem endsIn_iff_endsInAny : EndsIn sep xs ↔ EndsInAny (· == sep) xs := by
  unfold EndsIn EndsInAny
  cases xs.getLast? with
  | none => simp
  | some x => simp

theorem chomp_eq_chompAny (sep : α) (xs : List α) : chomp sep xs = chompAny (· == sep) xs := by
  unfold chomp chompAny
  simp only [endsIn_iff_endsInAny]

end Split
