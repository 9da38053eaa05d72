import Communique.Certificate
import Communique.Lib.Calendar
import Communique.Lib.Decimal
import Mathlib.Data.List.TakeWhile

/-!
# `convertTime`: the times of a certificate

* `stoi` : `std::stoi`, with the blanks and the sign that it allows;
* `Tm`, `timeFields`, `convertTime` : the fields that are cut out of the string and handed to `mktime`;
* `stoi_decimal`, `stoiAt_decimal` : a numeral of two or four digits is read as its number;
* `Written` : the two ways to write a date down; `timeFields_written` : both are read as the date;
* **`convertTime_spec`** : what is passed to `mktime`, what is refused, and the order of the results.
-/

namespace Communique
open Decimal Calendar

/-! ## `std::stoi` -/

/-- `isspace` of the C locale. -/
def isspace (c : UInt8) : Bool := c = 32 ∨ 9 ≤ c ∧ c ≤ 13

/-- What `std::invalid_argument` and `std::out_of_range` of `std::stoi` carry. -/
def stoiError : Exn := .exception (ascii "stoi")

/-- The sign of a number, and what follows it. -/
def sign : Bytes → Int × Bytes
  | 45 :: digits => (-1, digits)
  | 43 :: digits => (1, digits)
  | digits => (1, digits)

def stoi (str : Bytes) : Except Exn Int :=
  let (factor, rest) := sign (str.dropWhile isspace)
  let digits := rest.takeWhile isDigit
  let value := factor * ofDecimal digits
  if digits = [] then .error stoiError
  else if -2 ^ 31 ≤ value ∧ value < 2 ^ 31 then .ok value
  else .error stoiError

/-- `std::stoi( timeAsString.substr(position,count) )`. -/
def stoiAt (timeAsString : Bytes) (position count : Nat) : Except Exn Int :=
  (substr timeAsString position (some count)).bind stoi

/-! ## The conversion -/

/-- The fields of `std::tm` that are set. -/
structure Tm where
  tm_year : Int
  tm_mon : Int
  tm_mday : Int
  tm_hour : Int
  tm_min : Int
  tm_sec : Int
  tm_isdst : Int
  deriving DecidableEq

/-- The number of characters at the start of the string that are digits. -/
def digitChars (timeAsString : Bytes) : Nat := timeAsString.findIdx fun c => c < 48 ∨ 57 < c

def digitsError (timeAsString : Bytes) : Exn :=
  .exception (ascii "Cannot convert ASN1 time '" ++ timeAsString ++ ascii "', incorrect number of digits")

/-- The year, counted from 1900, and the position behind it. -/
def yearField (timeAsString : Bytes) : Except Exn (Int × Nat) :=
  if digitChars timeAsString = 12 then (stoiAt timeAsString 0 2).map fun year => (year + 100, 2)
  else (stoiAt timeAsString 0 4).map fun year => (year - 1900, 4)

/-- What `convertTime` passes to `mktime`. -/
def timeFields (timeAsString : Bytes) : Except Exn Tm :=
  if digitChars timeAsString ≠ 12 ∧ digitChars timeAsString ≠ 14 then .error (digitsError timeAsString)
  else do
    let (tm_year, position) ← yearField timeAsString
    let month ← stoiAt timeAsString position 2
    let tm_mday ← stoiAt timeAsString (position + 2) 2
    let tm_hour ← stoiAt timeAsString (position + 4) 2
    let tm_min ← stoiAt timeAsString (position + 6) 2
    let tm_sec ← stoiAt timeAsString (position + 8) 2
    let _timeZone ← substr timeAsString (position + 10) none
    return ⟨tm_year, month - 1, tm_mday, tm_hour, tm_min, tm_sec, -1⟩

/-- `mktime` stands for itself and for the clock's `from_time_t`. -/
def convertTime {Object ASN1 TimePoint : Type} (openSSL : OpenSSL Object ASN1) (mktime : Tm → TimePoint)
    (time : ASN1) : Except Exn TimePoint :=
  (convertASN1 openSSL time).bind fun timeAsString => (timeFields timeAsString).map mktime

/-! ## Numerals -/

theorem not_isspace_of_isDigit {c : UInt8} (h : isDigit c = true) : isspace c = false := by
  rw [isDigit_iff] at h
  simp [isspace, UInt8.le_iff_toNat_le, ← UInt8.toNat_inj]
  omega

theorem sign_of_isDigit {c : UInt8} (h : isDigit c = true) (digits : Bytes) :
    sign (c :: digits) = (1, c :: digits) := by
  rw [isDigit_iff] at h
  unfold sign
  split
  · next heq =>
    obtain ⟨rfl, -⟩ := List.cons.inj heq
    exact absurd h (by decide)
  · next heq =>
    obtain ⟨rfl, -⟩ := List.cons.inj heq
    exact absurd h (by decide)
  · rfl

/-- Digits, up to nine of them, are read as their number. -/
theorem stoi_of_digits {digits : Bytes} (h : ∀ c ∈ digits, isDigit c = true) (hpos : 0 < digits.length)
    (hle : digits.length ≤ 9) : stoi digits = .ok (ofDecimal digits) := by
  have hall : digits.takeWhile isDigit = digits := List.takeWhile_eq_self_iff.mpr h
  have hlt : ofDecimal digits < 2 ^ 31 :=
    calc ofDecimal digits < 10 ^ digits.length := ofDecimal_lt h
      _ ≤ 10 ^ 9 := Nat.pow_le_pow_right (by decide) hle
      _ ≤ 2 ^ 31 := by decide
  obtain ⟨c, rest, rfl⟩ := List.exists_cons_of_length_pos hpos
  have hc := h c List.mem_cons_self
  unfold stoi
  rw [List.dropWhile_cons_of_neg (by simp [not_isspace_of_isDigit hc]), sign_of_isDigit hc]
  dsimp only
  rw [hall, if_neg (List.cons_ne_nil c rest), if_pos (by omega), Int.one_mul]

theorem stoi_decimal {width x : Nat} (hx : x < 10 ^ width) (hpos : 0 < width) (hle : width ≤ 9) :
    stoi (decimal width x) = .ok (x : Int) := by
  rw [stoi_of_digits isDigit_of_mem_decimal (by rwa [length_decimal]) (by rwa [length_decimal]),
    ofDecimal_decimal hx]

/-- A numeral at the position. -/
theorem stoiAt_decimal {s rest : Bytes} {position width x : Nat} (hs : s.drop position = decimal width x ++ rest)
    (hx : x < 10 ^ width) (hpos : 0 < width) (hle : width ≤ 9) : stoiAt s position width = .ok (x : Int) := by
  have hin : position ≤ s.length := by
    have hlength := congrArg List.length hs
    rw [List.length_drop, List.length_append, length_decimal] at hlength
    omega
  have hsub : substr s position (some width) = .ok (decimal width x) := by
    rw [substr, if_pos hin, hs]
    exact congrArg Except.ok (List.take_left' (length_decimal width x))
  rw [stoiAt, hsub]
  exact stoi_decimal hx hpos hle

/-- What stands behind the numeral. -/
theorem drop_decimal {s rest : Bytes} {position width x : Nat}
    (hs : s.drop position = decimal width x ++ rest) : s.drop (position + width) = rest := by
  rw [← List.drop_drop, hs]
  exact List.drop_left' (length_decimal width x)

/-! ## Dates that are written down -/

/-- The digits behind the year. -/
def digitsBehindYear (d : DateTime) : Bytes :=
  decimal 2 d.month ++ (decimal 2 d.day ++ (decimal 2 d.hour ++ (decimal 2 d.minute ++ decimal 2 d.second)))

/-- `YYYYMMDDHHMMSS` for the years with four digits, and `YYMMDDHHMMSS` for those of this century. -/
inductive Written (d : DateTime) : Bytes → Prop
  | fourteen (h : d.year ≤ 9999) : Written d (decimal 4 d.year ++ digitsBehindYear d)
  | twelve (h : 2000 ≤ d.year) (h' : d.year ≤ 2099) : Written d (decimal 2 (d.year % 100) ++ digitsBehindYear d)

/-- The date as `std::tm` has it: years from 1900, and months from 0. -/
def tmOf (d : DateTime) : Tm := ⟨d.year - 1900, d.month - 1, d.day, d.hour, d.minute, d.second, -1⟩

/-- What follows the digits does not begin with one. -/
def NoDigit (suffix : Bytes) : Prop := ∀ c ∈ suffix.head?, isDigit c = false

instance (suffix : Bytes) : Decidable (NoDigit suffix) := inferInstanceAs (Decidable (∀ c ∈ _, _))

/-- The loop counts the digits at the start. -/
theorem digitChars_eq (s : Bytes) : digitChars s = (s.takeWhile isDigit).length := by
  have hstop : (fun c : UInt8 => decide (c < 48 ∨ 57 < c)) = fun c => !isDigit c := by
    funext c
    simp [isDigit, Bool.decide_or, ← UInt8.not_le]
  rw [List.takeWhile_eq_take_findIdx_not, List.length_take, Nat.min_eq_left List.findIdx_le_length, digitChars, hstop]

theorem digitChars_append {digits suffix : Bytes} (h : ∀ c ∈ digits, isDigit c = true) (hsuffix : NoDigit suffix) :
    digitChars (digits ++ suffix) = digits.length := by
  have hnil : suffix.takeWhile isDigit = [] := by
    cases suffix with
    | nil => rfl
    | cons c suffix => exact List.takeWhile_cons_of_neg (by simpa [NoDigit] using hsuffix)
  rw [digitChars_eq, List.takeWhile_append_of_pos h, hnil, List.append_nil]

theorem isDigit_of_written {d : DateTime} {digits : Bytes} (h : Written d digits) :
    ∀ c ∈ digits, isDigit c = true := by
  have hbehind : ∀ c ∈ digitsBehindYear d, isDigit c = true := by
    simp only [digitsBehindYear, List.forall_mem_append]
    exact ⟨isDigit_of_mem_decimal, isDigit_of_mem_decimal, isDigit_of_mem_decimal, isDigit_of_mem_decimal,
      isDigit_of_mem_decimal⟩
  cases h with
  | fourteen h => exact List.forall_mem_append.mpr ⟨isDigit_of_mem_decimal, hbehind⟩
  | twelve h h' => exact List.forall_mem_append.mpr ⟨isDigit_of_mem_decimal, hbehind⟩

/-- The year of either form, and the position of the month. -/
theorem yearField_written {d : DateTime} {digits suffix : Bytes} (h : Written d digits) (hsuffix : NoDigit suffix) :
    ∃ position, (digits.length = 12 ∨ digits.length = 14) ∧
      yearField (digits ++ suffix) = .ok ((d.year : Int) - 1900, position) ∧
      (digits ++ suffix).drop position = digitsBehindYear d ++ suffix := by
  have hchars := digitChars_append (isDigit_of_written h) hsuffix
  cases h with
  | fourteen h =>
    have hlength : (decimal 4 d.year ++ digitsBehindYear d).length = 14 := by simp [digitsBehindYear]
    have hs : ((decimal 4 d.year ++ digitsBehindYear d) ++ suffix).drop 0 =
        decimal 4 d.year ++ (digitsBehindYear d ++ suffix) := by rw [List.drop_zero, List.append_assoc]
    refine ⟨4, Or.inr hlength, ?_, drop_decimal hs⟩
    rw [yearField, if_neg (by omega), stoiAt_decimal hs (by omega) (by decide) (by decide)]
    rfl
  | twelve h h' =>
    have hlength : (decimal 2 (d.year % 100) ++ digitsBehindYear d).length = 12 := by simp [digitsBehindYear]
    have hs : ((decimal 2 (d.year % 100) ++ digitsBehindYear d) ++ suffix).drop 0 =
        decimal 2 (d.year % 100) ++ (digitsBehindYear d ++ suffix) := by rw [List.drop_zero, List.append_assoc]
    refine ⟨2, Or.inl hlength, ?_, drop_decimal hs⟩
    rw [yearField, if_pos (by omega), stoiAt_decimal hs (by omega) (by decide) (by decide), Except.map]
    congr 2
    omega

/-- Either form of a date is read as the date. -/
theorem timeFields_written {d : DateTime} {digits suffix : Bytes} (h : Written d digits) (hsuffix : NoDigit suffix) :
    timeFields (digits ++ suffix) = .ok (tmOf d) := by
  obtain ⟨position, hlength, hyear, hmonth⟩ := yearField_written h hsuffix
  have hchars := digitChars_append (isDigit_of_written h) hsuffix
  have hmonth : (digits ++ suffix).drop position = decimal 2 d.month ++ (decimal 2 d.day ++ (decimal 2 d.hour ++
      (decimal 2 d.minute ++ (decimal 2 d.second ++ suffix)))) := by
    rw [hmonth, digitsBehindYear]
    simp only [List.append_assoc]
  have hday := drop_decimal hmonth
  have hhour := drop_decimal hday
  have hminute := drop_decimal hhour
  have hsecond := drop_decimal hminute
  have hzone : position + 10 ≤ (digits ++ suffix).length := by
    have := congrArg List.length hmonth
    simp only [List.length_drop, List.length_append, length_decimal] at this ⊢
    omega
  have hmonth_le := d.month_le
  have hday_le := d.day_le_31
  have hhour_lt := d.hour_lt
  have hminute_lt := d.minute_lt
  have hsecond_le := d.second_le
  rw [timeFields, if_neg (by omega), hyear]
  dsimp only [bind, Except.bind]
  rw [stoiAt_decimal hmonth (by omega) (by decide) (by decide),
    stoiAt_decimal hday (by omega) (by decide) (by decide),
    stoiAt_decimal hhour (by omega) (by decide) (by decide),
    stoiAt_decimal hminute (by omega) (by decide) (by decide),
    stoiAt_decimal hsecond (by omega) (by decide) (by decide), substr, if_pos hzone]
  rfl

/-! ## The order of the dates -/

/-- The fields in the order in which they are compared. -/
def Tm.fields (tm : Tm) : List Int := [tm.tm_year, tm.tm_mon, tm.tm_mday, tm.tm_hour, tm.tm_min, tm.tm_sec]

theorem fields_tmOf_lt_iff (d e : DateTime) : (tmOf d).fields < (tmOf e).fields ↔ d.Before e := by
  rw [DateTime.before_iff, DateTime.fields_lt_iff]
  simp [Tm.fields, tmOf, List.cons_lt_cons_iff]

theorem tmOf_inj {d e : DateTime} : tmOf d = tmOf e ↔ d = e := by
  refine ⟨fun h => DateTime.fields_inj ?_, congrArg tmOf⟩
  simp only [tmOf, Tm.mk.injEq] at h
  simp only [DateTime.fields, List.cons.injEq, and_true]
  omega

/-- **`convertTime` passes to `mktime` exactly the date that is written down**, in either form and whatever
follows the digits, and refuses every string with another number of digits at its start. The decoded fields
are ordered as the dates are in time, and they do not depend on the form. -/
theorem convertTime_spec {Object ASN1 TimePoint : Type} (openSSL : OpenSSL Object ASN1)
    (mktime : Tm → TimePoint) :
    (∀ d digits suffix time, Written d digits → NoDigit suffix →
        openSSL.ASN1_STRING_to_UTF8 time = some (digits ++ suffix) →
        convertTime openSSL mktime time = .ok (mktime (tmOf d))) ∧
      (∀ time timeAsString, openSSL.ASN1_STRING_to_UTF8 time = some timeAsString →
        (timeAsString.takeWhile isDigit).length ≠ 12 → (timeAsString.takeWhile isDigit).length ≠ 14 →
        convertTime openSSL mktime time = .error (digitsError timeAsString)) ∧
      ∀ d e digits digits' suffix suffix', Written d digits → NoDigit suffix → Written e digits' →
        NoDigit suffix' → ∃ tm tm', timeFields (digits ++ suffix) = .ok tm ∧
          timeFields (digits' ++ suffix') = .ok tm' ∧ (tm.fields < tm'.fields ↔ d.Before e) ∧
          (tm = tm' ↔ d = e) := by
  refine ⟨?_, ?_, ?_⟩
  · intro d digits suffix time hwritten hsuffix htime
    rw [convertTime, convertASN1, htime]
    dsimp only [Except.bind]
    rw [timeFields_written hwritten hsuffix]
    rfl
  · intro time timeAsString htime htwelve hfourteen
    rw [← digitChars_eq] at htwelve hfourteen
    rw [convertTime, convertASN1, htime]
    dsimp only [Except.bind]
    rw [timeFields, if_pos ⟨htwelve, hfourteen⟩]
    rfl
  · intro d e digits digits' suffix suffix' hd hsuffix he hsuffix'
    exact ⟨tmOf d, tmOf e, timeFields_written hd hsuffix, timeFields_written he hsuffix', fields_tmOf_lt_iff d e,
      tmOf_inj⟩

/-- The last second of a leap day. -/
def leapDay : DateTime :=
  ⟨2024, 2, 29, 23, 59, 59, by decide, by decide, by decide, by decide, by decide, by decide, by decide⟩

/-- The same time in both forms, with different zones behind it. -/
theorem convertTime_leapDay :
    convertTime Certificate.names id (ascii "240229235959Z") = .ok (tmOf leapDay) ∧
      convertTime Certificate.names id (ascii "20240229235959+0100") = .ok (tmOf leapDay) := by
  have hread := (convertTime_spec Certificate.names id).1
  have hzone : NoDigit (ascii "Z") := by simp [NoDigit, ascii, isDigit]
  have hoffset : NoDigit (ascii "+0100") := by simp [NoDigit, ascii, isDigit]
  constructor
  · exact hread leapDay _ _ _ (.twelve (by decide) (by decide)) hzone rfl
  · exact hread leapDay _ _ _ (.fourteen (by decide)) hoffset rfl

end Communique
