import Mathlib.Data.List.Basic

/-!
# Strings of 16-bit code units as UTF-8

* `scalarValues` : the characters of a string of code units, a lone surrogate read as U+FFFD;
* `utf8` : their UTF-8 bytes; `latin1` : one byte for each code unit;
* `utf8_eq_latin1_iff` : on code units below 256 the two agree exactly on ASCII.
-/

namespace Text

abbrev CodeUnits := List UInt16

def isHighSurrogate (c : UInt16) : Bool := 0xD800 ≤ c.toNat ∧ c.toNat ≤ 0xDBFF

def isLowSurrogate (c : UInt16) : Bool := 0xDC00 ≤ c.toNat ∧ c.toNat ≤ 0xDFFF

/-- A code unit that is not part of a pair. -/
def scalarValue (c : UInt16) : Char :=
  if isHighSurrogate c ∨ isLowSurrogate c then Char.ofNat 0xFFFD else Char.ofNat c.toNat

def scalarValues : CodeUnits → List Char
  | [] => []
  | [c] => [scalarValue c]
  | c :: d :: rest =>
    if isHighSurrogate c ∧ isLowSurrogate d then
      Char.ofNat (0x10000 + (c.toNat - 0xD800) * 0x400 + (d.toNat - 0xDC00)) :: scalarValues rest
    else scalarValue c :: scalarValues (d :: rest)

def utf8 (s : CodeUnits) : List UInt8 := (scalarValues s).flatMap String.utf8EncodeChar

/-- One byte for each code unit, its low one. -/
def latin1 (s : CodeUnits) : List UInt8 := s.map fun c => UInt8.ofNat c.toNat

@[simp] theorem length_latin1 (s : CodeUnits) : (latin1 s).length = s.length := by
  rw [latin1, List.length_map]

theorem scalarValue_of_le {c : UInt16} (h : c.toNat ≤ 255) : scalarValue c = Char.ofNat c.toNat := by
  have hhigh : isHighSurrogate c = false := by
    unfold isHighSurrogate
    apply decide_eq_false
    omega
  have hlow : isLowSurrogate c = false := by
    unfold isLowSurrogate
    apply decide_eq_false
    omega
  rw [scalarValue, hhigh, hlow]
  rfl

/-- No pairs below 256: every code unit is a character. -/
theorem scalarValues_of_le {s : CodeUnits} (h : ∀ c ∈ s, c.toNat ≤ 255) :
    scalarValues s = s.map fun c => Char.ofNat c.toNat := by
  fun_induction scalarValues s with
  | case1 => rfl
  | case2 c => rw [List.map_singleton, scalarValue_of_le (h c (by simp))]
  | case3 c d rest hpair ih =>
    have hc : c.toNat ≤ 255 := h c (by simp)
    have hhigh := hpair.1
    unfold isHighSurrogate at hhigh
    have := of_decide_eq_true hhigh
    omega
  | case4 c d rest hpair ih =>
    rw [ih (fun x hx => h x (List.mem_cons_of_mem _ hx)), scalarValue_of_le (h c (by simp))]
    rfl

/-- A code unit below 256 is not the first half of a pair. -/
theorem scalarValues_cons {c : UInt16} (h : c.toNat ≤ 255) (s : CodeUnits) :
    scalarValues (c :: s) = Char.ofNat c.toNat :: scalarValues s := by
  cases s with
  | nil =>
    show [scalarValue c] = _
    rw [scalarValue_of_le h]
    rfl
  | cons d rest =>
    have hhigh : isHighSurrogate c = false := by
      unfold isHighSurrogate
      apply decide_eq_false
      omega
    rw [scalarValues, if_neg (by simp [hhigh]), scalarValue_of_le h]

theorem val_ofNat {c : UInt16} (h : c.toNat ≤ 255) : (Char.ofNat c.toNat).val.toNat = c.toNat := by
  have hvalid : c.toNat.isValidChar := Or.inl (by omega)
  rw [Char.ofNat, dif_pos hvalid]
  rfl

theorem utf8EncodeChar_ascii {c : UInt16} (h : c.toNat ≤ 127) :
    String.utf8EncodeChar (Char.ofNat c.toNat) = [UInt8.ofNat c.toNat] := by
  have hval : (Char.ofNat c.toNat).val.toNat = c.toNat := by
    apply val_ofNat
    omega
  unfold String.utf8EncodeChar
  simp only [hval, if_pos h]

theorem utf8_cons_ascii {c : UInt16} (h : c.toNat ≤ 127) (s : CodeUnits) :
    utf8 (c :: s) = UInt8.ofNat c.toNat :: utf8 s := by
  rw [utf8, scalarValues_cons (by omega), List.flatMap_cons, utf8EncodeChar_ascii h]
  rfl

/-- A code unit from 128 to 255 takes two bytes. -/
theorem length_utf8EncodeChar {c : UInt16} (h : c.toNat ≤ 255) :
    (String.utf8EncodeChar (Char.ofNat c.toNat)).length = if c.toNat ≤ 127 then 1 else 2 := by
  by_cases hascii : c.toNat ≤ 127
  · rw [utf8EncodeChar_ascii hascii, if_pos hascii]
    rfl
  · have htwo : c.toNat ≤ 0x7ff := by omega
    rw [if_neg hascii]
    unfold String.utf8EncodeChar
    simp only [val_ofNat h, if_neg hascii, if_pos htwo]
    rfl

theorem length_utf8 {s : CodeUnits} (h : ∀ c ∈ s, c.toNat ≤ 255) :
    (utf8 s).length = s.length + s.countP fun c => ¬ c.toNat ≤ 127 := by
  rw [utf8, scalarValues_of_le h]
  induction s with
  | nil => rfl
  | cons c s ih =>
    have ih := ih fun x hx => h x (List.mem_cons_of_mem _ hx)
    rw [List.map_cons, List.flatMap_cons, List.length_append, ih,
      length_utf8EncodeChar (h c (by simp)), List.length_cons, List.countP_cons]
    by_cases hascii : c.toNat ≤ 127
    · rw [if_pos hascii, if_neg (by simp [hascii])]
      omega
    · rw [if_neg hascii, if_pos (by simp [hascii])]
      omega

/-- ASCII strings have one byte for each character. -/
theorem utf8_ascii {s : CodeUnits} (h : ∀ c ∈ s, c.toNat ≤ 127) : utf8 s = latin1 s := by
  have h255 : ∀ c ∈ s, c.toNat ≤ 255 := by
    intro c hc
    have := h c hc
    omega
  rw [utf8, scalarValues_of_le h255, latin1]
  induction s with
  | nil => rfl
  | cons c s ih =>
    rw [List.map_cons, List.flatMap_cons, utf8EncodeChar_ascii (h c (by simp)),
      ih (fun x hx => h x (List.mem_cons_of_mem _ hx)) fun x hx => h255 x (List.mem_cons_of_mem _ hx)]
    rfl

/-- UTF-8 writes each code unit as its own byte exactly when the string is ASCII. -/
theorem utf8_eq_latin1_iff {s : CodeUnits} (h : ∀ c ∈ s, c.toNat ≤ 255) :
    utf8 s = latin1 s ↔ ∀ c ∈ s, c.toNat ≤ 127 := by
  refine ⟨fun heq c hc => ?_, utf8_ascii⟩
  have hlen := congrArg List.length heq
  rw [length_utf8 h, length_latin1] at hlen
  have hzero : s.countP (fun c => ¬ c.toNat ≤ 127) = 0 := by omega
  have hnone := List.countP_eq_zero.mp hzero c hc
  simpa using hnone

end Text
