import Communique.OpenSSLTools.SplitByDelimiters
import Mathlib.Data.List.Forall2

/-!
# `checkHostname`: hostnames against names with wildcards

* `checkHostname` : the pass for equal names, then the pass for wildcards;
* `checkHostname_eq` : the result on every hostname and list;
* **`checkHostname_eq_checkPieces`** : the first pass never changes the answer;
* `Documented` : the relation between a hostname and an allowed name that the documentation describes;
* **`checkHostname_documented_iff`** : the two agree unless an allowed name and the hostname differ in
  whether they end in a dot.
-/

namespace Communique
open Split

/-! ## The check -/

def dot : UInt8 := '.'.toNat.toUInt8
def asterisk : Bytes := ascii "*"

/-- The loop over the elements of both names, to the end of the shorter one. -/
def allElementsMatch : List Bytes → List Bytes → Bool
  | host :: hosts, allowed :: alloweds =>
    if allowed ≠ asterisk ∧ allowed ≠ host then false else allElementsMatch hosts alloweds
  | _, _ => true

/-- The second loop over the allowed names. -/
def checkWildcards (hostnameSplitByDots : List Bytes) : List Bytes → Except Exn Bool
  | [] => .ok false
  | allowedHost :: allowedList =>
    (splitByDelimiters allowedHost [dot]).bind fun allowedHostSplitByDots =>
      if hostnameSplitByDots.length ≠ allowedHostSplitByDots.length then
        checkWildcards hostnameSplitByDots allowedList
      else if allElementsMatch hostnameSplitByDots allowedHostSplitByDots then .ok true
      else checkWildcards hostnameSplitByDots allowedList

def checkHostname (hostname : Bytes) (allowedList : List Bytes) : Except Exn Bool :=
  if allowedList.any (hostname == ·) then .ok true
  else (splitByDelimiters hostname [dot]).bind fun hostnameSplitByDots =>
    checkWildcards hostnameSplitByDots allowedList

/-! ## The documented relation -/

/-- A piece of an allowed name against the piece of the hostname at the same position. -/
def PieceMatches (allowed host : Bytes) : Prop := allowed = asterisk ∨ allowed = host

instance (allowed host : Bytes) : Decidable (PieceMatches allowed host) :=
  inferInstanceAs (Decidable (_ ∨ _))

/-- The name itself, or as many dots and every piece an asterisk or the same. -/
def Documented (hostname allowed : Bytes) : Prop :=
  hostname = allowed ∨
    allowed.count dot = hostname.count dot ∧
      List.Forall₂ PieceMatches (allowed.splitOn dot) (hostname.splitOn dot)

instance (hostname allowed : Bytes) : Decidable (Documented hostname allowed) :=
  inferInstanceAs (Decidable (_ ∨ _))

theorem forall₂_pieceMatches_refl (pieces : List Bytes) : List.Forall₂ PieceMatches pieces pieces :=
  List.forall₂_same.mpr fun _ _ => Or.inr rfl

theorem Documented.count {hostname allowed : Bytes} (h : Documented hostname allowed) :
    allowed.count dot = hostname.count dot := by
  obtain rfl | h := h
  · rfl
  · exact h.1

/-- The dots need no check of their own, and an equal name matches piece by piece. -/
theorem documented_iff {hostname allowed : Bytes} :
    Documented hostname allowed ↔
      List.Forall₂ PieceMatches (allowed.splitOn dot) (hostname.splitOn dot) := by
  refine ⟨?_, fun h => Or.inr ⟨?_, h⟩⟩
  · rintro (rfl | ⟨-, h⟩)
    · exact forall₂_pieceMatches_refl _
    · exact h
  · have := h.length_eq
    rw [length_splitOn, length_splitOn] at this
    omega

/-! ## The check -/

theorem allElementsMatch_iff {hosts alloweds : List Bytes} (h : hosts.length = alloweds.length) :
    allElementsMatch hosts alloweds = true ↔ List.Forall₂ PieceMatches alloweds hosts := by
  fun_induction allElementsMatch hosts alloweds with
  | case1 host hosts allowed alloweds hne =>
    simp [PieceMatches, hne.1, hne.2]
  | case2 host hosts allowed alloweds hmatch ih =>
    have hpiece : PieceMatches allowed host := by
      unfold PieceMatches
      tauto
    rw [ih (by simpa using h), List.forall₂_cons]
    exact (and_iff_right hpiece).symm
  | case3 hosts alloweds hnil =>
    cases hosts with
    | nil =>
      obtain rfl := List.eq_nil_of_length_eq_zero h.symm
      simp
    | cons host hosts =>
      obtain ⟨allowed, alloweds, rfl⟩ := List.exists_cons_of_length_eq_add_one h.symm
      exact absurd rfl (hnil host hosts allowed alloweds rfl)

/-- One allowed name of the second loop: both names are taken without a dot at the end. -/
theorem checkWildcards_eq (hostname : Bytes) (allowedList : List Bytes) :
    checkWildcards ((chomp dot hostname).splitOn dot) allowedList =
      .ok (decide (∃ a ∈ allowedList, Documented (chomp dot hostname) (chomp dot a))) := by
  induction allowedList with
  | nil => simp [checkWildcards]
  | cons a allowedList ih =>
    rw [checkWildcards, splitByDelimiters_singleton, Except.bind, ih]
    by_cases hlength : ((chomp dot hostname).splitOn dot).length = ((chomp dot a).splitOn dot).length
    · rw [if_neg (not_not.mpr hlength)]
      simp only [allElementsMatch_iff hlength, ← documented_iff]
      by_cases hdoc : Documented (chomp dot hostname) (chomp dot a) <;> simp [hdoc]
    · have hdoc : ¬ Documented (chomp dot hostname) (chomp dot a) :=
        fun h => hlength (documented_iff.mp h).length_eq.symm
      rw [if_pos hlength]
      simp [hdoc]

/-- `checkHostname` never throws, and ignores a dot at the end of either name. -/
theorem checkHostname_eq (hostname : Bytes) (allowedList : List Bytes) :
    checkHostname hostname allowedList =
      .ok (decide (∃ a ∈ allowedList, Documented (chomp dot hostname) (chomp dot a))) := by
  rw [checkHostname, splitByDelimiters_singleton, Except.bind, checkWildcards_eq]
  split
  · next hany =>
    have hequal : hostname ∈ allowedList := by simpa using hany
    exact congrArg Except.ok (decide_eq_true ⟨hostname, hequal, Or.inl rfl⟩).symm
  · rfl

/-- The order of the allowed names and their repetitions do not matter. -/
theorem checkHostname_congr {allowedList allowedList' : List Bytes} (hostname : Bytes)
    (h : ∀ a, a ∈ allowedList ↔ a ∈ allowedList') :
    checkHostname hostname allowedList = checkHostname hostname allowedList' := by
  rw [checkHostname_eq, checkHostname_eq]
  apply congrArg Except.ok
  rw [decide_eq_decide]
  exact exists_congr fun a => and_congr_left' (h a)

/-- One list checked after the other. -/
theorem checkHostname_append (hostname : Bytes) (allowedList others : List Bytes) :
    checkHostname hostname (allowedList ++ others) =
      (checkHostname hostname allowedList).bind fun matched =>
        if matched then .ok true else checkHostname hostname others := by
  simp only [checkHostname_eq, Except.bind, List.mem_append, or_and_right, exists_or, Bool.decide_or]
  split
  · next hmatched => rw [hmatched, Bool.true_or]
  · next hmatched => rw [(Bool.not_eq_true _).mp hmatched, Bool.false_or]

/-- `checkHostname` without its first loop. -/
def checkPieces (hostname : Bytes) (allowedList : List Bytes) : Except Exn Bool :=
  (splitByDelimiters hostname [dot]).bind fun hostnameSplitByDots => checkWildcards hostnameSplitByDots allowedList

/-- An equal name is found by its pieces as well. -/
theorem checkPieces_eq (hostname : Bytes) (allowedList : List Bytes) :
    checkPieces hostname allowedList =
      .ok (decide (∃ a ∈ allowedList, Documented (chomp dot hostname) (chomp dot a))) := by
  rw [checkPieces, splitByDelimiters_singleton, Except.bind, checkWildcards_eq]

/-- More allowed names do not turn a match into a mismatch. -/
theorem checkHostname_mono {allowedList allowedList' : List Bytes} {hostname : Bytes}
    (hsub : ∀ a ∈ allowedList, a ∈ allowedList') (h : checkHostname hostname allowedList = .ok true) :
    checkHostname hostname allowedList' = .ok true := by
  rw [checkHostname_eq, Except.ok.injEq, decide_eq_true_iff] at h ⊢
  obtain ⟨a, ha, hdoc⟩ := h
  exact ⟨a, hsub a ha, hdoc⟩

/-- **The first loop of `checkHostname` never changes its answer.** It always returns one, which depends on the
set of the allowed names alone, is the disjunction of the answers for two parts of the list, and does not turn
from true to false when names are added. -/
theorem checkHostname_eq_checkPieces (hostname : Bytes) (allowedList : List Bytes) :
    checkHostname hostname allowedList = checkPieces hostname allowedList ∧
      (∃ matched, checkHostname hostname allowedList = .ok matched) ∧
      (∀ allowedList', (∀ a, a ∈ allowedList' ↔ a ∈ allowedList) →
        checkHostname hostname allowedList' = checkHostname hostname allowedList) ∧
      (∀ others, checkHostname hostname (allowedList ++ others) =
        (checkHostname hostname allowedList).bind fun matched =>
          (checkHostname hostname others).map fun matched' => matched || matched') ∧
      ∀ allowedList', (∀ a ∈ allowedList, a ∈ allowedList') → checkHostname hostname allowedList = .ok true →
        checkHostname hostname allowedList' = .ok true := by
  refine ⟨?_, ⟨_, checkHostname_eq hostname allowedList⟩, ?_, ?_, ?_⟩
  · rw [checkHostname_eq, checkPieces_eq]
  · intro allowedList' hsame
    exact checkHostname_congr hostname hsame
  · intro others
    rw [checkHostname_append]
    simp only [checkHostname_eq, Except.bind, Except.map]
    split
    · next hmatched => rw [hmatched, Bool.true_or]
    · next hmatched => rw [(Bool.not_eq_true _).mp hmatched, Bool.false_or]
  · intro allowedList' hsub
    exact checkHostname_mono hsub

example : checkHostname (ascii "mail.google.co.uk") [ascii "google.jp", ascii "*.google.co.uk"] = .ok true := by
  rw [checkHostname_eq]
  decide

/-! ## Where they agree -/

/-- Exactly one of the two ends in a dot. -/
def DotDiffers (hostname allowed : Bytes) : Prop := ¬ (EndsIn dot hostname ↔ EndsIn dot allowed)

instance (hostname allowed : Bytes) : Decidable (DotDiffers hostname allowed) :=
  inferInstanceAs (Decidable (¬ _))

/-- Where both names end in a dot, the last pieces are empty, and match. -/
theorem documented_chomp {hostname allowed : Bytes} (h : ¬ DotDiffers hostname allowed) :
    Documented (chomp dot hostname) (chomp dot allowed) ↔ Documented hostname allowed := by
  rw [DotDiffers, not_not] at h
  by_cases hdot : EndsIn dot hostname
  · obtain ⟨x, rfl⟩ := endsIn_iff.mp hdot
    obtain ⟨y, rfl⟩ := endsIn_iff.mp (h.mp hdot)
    rw [chomp_concat, chomp_concat, documented_iff, documented_iff]
    exact (forall₂_splitOn_concat (Or.inr rfl)).symm
  · rw [chomp_of_not_endsIn hdot, chomp_of_not_endsIn (fun ha => hdot (h.mpr ha))]

/-- An allowed name without the dot at the end of the hostname matches by an asterisk in that place. -/
theorem documented_of_dotDiffers {hostname allowed : Bytes} :
    DotDiffers hostname allowed ∧ Documented hostname allowed ↔
      EndsIn dot hostname ∧ ∃ y, allowed = y ++ dot :: asterisk ∧ Documented (chomp dot hostname) y := by
  have hasterisk : dot ∉ asterisk := by decide
  by_cases hdot : EndsIn dot hostname
  · obtain ⟨x, rfl⟩ := endsIn_iff.mp hdot
    rw [chomp_concat, documented_iff, forall₂_splitOn_concat_right, DotDiffers]
    constructor
    · rintro ⟨hdiffers, y, piece, rfl, hpiece, rfl | rfl, hmatch⟩
      · exact ⟨hdot, y, rfl, documented_iff.mpr hmatch⟩
      · exact absurd (iff_of_true hdot (endsIn_iff.mpr ⟨y, rfl⟩)) hdiffers
    · rintro ⟨-, y, rfl, hmatch⟩
      refine ⟨?_, y, asterisk, rfl, hasterisk, Or.inl rfl, documented_iff.mp hmatch⟩
      rw [endsIn_append_cons_iff hasterisk]
      exact fun h => absurd (h.mp hdot) (by decide)
  · refine iff_of_false ?_ (fun h => hdot h.1)
    rintro ⟨hdiffers, hdoc⟩
    have hallowed : EndsIn dot allowed := by
      by_contra h
      exact hdiffers (iff_of_false hdot h)
    obtain ⟨y, rfl⟩ := endsIn_iff.mp hallowed
    have hmatch : List.Forall₂ (flip PieceMatches) (hostname.splitOn dot) ((y ++ [dot]).splitOn dot) :=
      (documented_iff.mp hdoc).flip
    obtain ⟨zs, piece, rfl, -, hlast, -⟩ := forall₂_splitOn_concat_right.mp hmatch
    obtain rfl : [] = piece := hlast.resolve_left (by decide)
    exact hdot (endsIn_iff.mpr ⟨zs, rfl⟩)

/-- The allowed names with a dot at the end where the hostname has one decide rightly. -/
theorem checkHostname_split (hostname : Bytes) (allowedList : List Bytes) :
    checkHostname hostname allowedList = .ok true ↔
      (∃ a ∈ allowedList, ¬ DotDiffers hostname a ∧ Documented hostname a) ∨
        ∃ a ∈ allowedList, DotDiffers hostname a ∧ Documented (chomp dot hostname) (chomp dot a) := by
  rw [checkHostname_eq, Except.ok.injEq, decide_eq_true_iff]
  constructor
  · rintro ⟨a, ha, hdoc⟩
    by_cases hdot : DotDiffers hostname a
    · exact Or.inr ⟨a, ha, hdot, hdoc⟩
    · exact Or.inl ⟨a, ha, hdot, (documented_chomp hdot).mp hdoc⟩
  · rintro (⟨a, ha, hdot, hdoc⟩ | ⟨a, ha, -, hdoc⟩)
    · exact ⟨a, ha, (documented_chomp hdot).mpr hdoc⟩
    · exact ⟨a, ha, hdoc⟩

/-- **`checkHostname` decides the documented relation** between a hostname and a list of allowed names if and
only if an allowed name matches that ends in a dot exactly when the hostname does, or else one of the other
names matches without the dot exactly when the hostname ends in a dot and one of them matches by an asterisk
behind its last dot. -/
theorem checkHostname_documented_iff (hostname : Bytes) (allowedList : List Bytes) :
    (checkHostname hostname allowedList = .ok true ↔ ∃ a ∈ allowedList, Documented hostname a) ↔
      (∃ a ∈ allowedList, ¬ DotDiffers hostname a ∧ Documented hostname a) ∨
        ((∃ a ∈ allowedList, DotDiffers hostname a ∧ Documented (chomp dot hostname) (chomp dot a)) ↔
          EndsIn dot hostname ∧
            ∃ y, y ++ dot :: asterisk ∈ allowedList ∧ Documented (chomp dot hostname) y) := by
  have hspec : (∃ a ∈ allowedList, Documented hostname a) ↔
      (∃ a ∈ allowedList, ¬ DotDiffers hostname a ∧ Documented hostname a) ∨
        ∃ a ∈ allowedList, DotDiffers hostname a ∧ Documented hostname a := by
    rw [← exists_or]
    apply exists_congr
    intro a
    by_cases hdot : DotDiffers hostname a <;> simp [hdot]
  have hdiffers : (∃ a ∈ allowedList, DotDiffers hostname a ∧ Documented hostname a) ↔
      EndsIn dot hostname ∧
        ∃ y, y ++ dot :: asterisk ∈ allowedList ∧ Documented (chomp dot hostname) y := by
    simp only [documented_of_dotDiffers]
    constructor
    · rintro ⟨_, ha, hdot, y, rfl, hdoc⟩
      exact ⟨hdot, y, ha, hdoc⟩
    · rintro ⟨hdot, y, ha, hdoc⟩
      exact ⟨_, ha, hdot, y, rfl, hdoc⟩
  rw [checkHostname_split, hspec, hdiffers]
  by_cases hsame : ∃ a ∈ allowedList, ¬ DotDiffers hostname a ∧ Documented hostname a
  · simp only [hsame, true_or]
  · simp only [hsame, false_or]

/-- The last piece of the hostname is lost: the asterisk stands for the first one alone. -/
theorem checkHostname_dot_at_end :
    checkHostname (ascii "example.com.") [ascii "*.com"] = .ok true ∧
      ¬ ∃ a ∈ [ascii "*.com"], Documented (ascii "example.com.") a := by
  rw [checkHostname_eq]
  decide

end Communique
