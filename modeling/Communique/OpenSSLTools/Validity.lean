import Communique.OpenSSLTools.ConvertTime
import Mathlib.Algebra.Order.Ring.Abs
import Mathlib.Algebra.Order.Ring.Int

/-!
# `Certificate::dateIsValid`: the dates of a certificate and the clock

The dates are cut out of the certificate's strings and read by `mktime` as times of the system's own zone; the
zone that is written behind the digits is cut off, and two digits of a year mean one of this century.

* `SystemClock`, `Validity` : what the answer is computed from; `validNotBefore`, `validNotAfter`, `dateIsValid`;
* `Fits`, `SystemClock.Holds` : the dates that the ticks of the clock reach;
* `Zone`, `Dated` : dates that are written with a zone; `instant` : what they mean;
* `window_eq_iff` : when two windows contain the same instants;
* **`dateIsValid_right_iff`** : in which zones the answer is right at all times;
* **`dateIsValid_of_far`** : how far it can be off in the others, whatever their rules;
* `DER`, `inThisCentury`, **`dateIsValid_der_iff`** : what the two digits do to the dates of certificates.
-/

namespace Communique
open Decimal Calendar

/-! ## The dates -/

/-- A number of ticks has 64 bits. -/
def Fits (count : Int) : Prop := -2 ^ 63 ≤ count ∧ count < 2 ^ 63

/-- `mktime` of the system, and `std::chrono::system_clock` with its ticks in a second. Nobody says what a time
becomes whose number of ticks is too large. -/
structure SystemClock where
  mktime : Tm → Int
  ticks : Int
  from_time_t : Int → Int
  one_lt_ticks : 1 < ticks
  from_time_t_eq : ∀ time, Fits (time * ticks) → from_time_t time = time * ticks

/-- `X509_get_notBefore` and `X509_get_notAfter` of the certificate. -/
structure Validity (ASN1 : Type) where
  notBefore : ASN1
  notAfter : ASN1

variable {Object ASN1 : Type} (openSSL : OpenSSL Object ASN1) (clock : SystemClock)

def validNotBefore (handle : Validity ASN1) : Except Exn Int :=
  convertTime openSSL (fun time => clock.from_time_t (clock.mktime time)) handle.notBefore

def validNotAfter (handle : Validity ASN1) : Except Exn Int :=
  convertTime openSSL (fun time => clock.from_time_t (clock.mktime time)) handle.notAfter

def dateIsValid (handle : Validity ASN1) (now : Int) : Except Exn Bool :=
  (validNotBefore openSSL clock handle).bind fun notBefore =>
    (validNotAfter openSSL clock handle).bind fun notAfter =>
      .ok (decide (notBefore < now) && decide (now < notAfter))

/-! ## What the strings mean -/

/-- The zone behind the digits: that of Greenwich, or hours and minutes ahead of it or behind. -/
inductive Zone
  | Z
  | ahead (hours : Fin 24) (minutes : Fin 60)
  | behind (hours : Fin 24) (minutes : Fin 60)

def Zone.suffix : Zone → Bytes
  | .Z => ascii "Z"
  | .ahead hours minutes => 43 :: (decimal 2 hours ++ decimal 2 minutes)
  | .behind hours minutes => 45 :: (decimal 2 hours ++ decimal 2 minutes)

/-- The seconds that clocks of the zone are ahead. -/
def Zone.offset : Zone → Int
  | .Z => 0
  | .ahead hours minutes => hours * 3600 + minutes * 60
  | .behind hours minutes => -(hours * 3600 + minutes * 60)

/-- The string is the date, in either form, and the zone. -/
def Dated (time : ASN1) (d : DateTime) (zone : Zone) : Prop :=
  ∃ digits, Written d digits ∧ openSSL.ASN1_STRING_to_UTF8 time = some (digits ++ zone.suffix)

/-- The date as `mktime` reads it is within reach of the clock. -/
def SystemClock.Holds (clock : SystemClock) (d : DateTime) : Prop := Fits (clock.mktime (tmOf d) * clock.ticks)

/-- The moment at which clocks of the zone show the date. -/
def instant (d : DateTime) (zone : Zone) : Int := d.seconds - zone.offset

theorem instant_Z (d : DateTime) : instant d .Z = d.seconds := Int.sub_zero _

variable {openSSL clock} {handle : Validity ASN1} {now : Int}

theorem Zone.noDigit_suffix (zone : Zone) : NoDigit zone.suffix := by
  cases zone with
  | Z => simp [NoDigit, Zone.suffix, ascii, isDigit]
  | ahead hours minutes => simp [NoDigit, Zone.suffix, isDigit]
  | behind hours minutes => simp [NoDigit, Zone.suffix, isDigit]

theorem convertTime_of_read {TimePoint : Type} {mktime : Tm → TimePoint} {time : ASN1} {timeAsString : Bytes}
    {tm : Tm} (h : openSSL.ASN1_STRING_to_UTF8 time = some timeAsString)
    (hfields : timeFields timeAsString = .ok tm) :
    convertTime openSSL mktime time = .ok (mktime tm) := by
  rw [convertTime, convertASN1_some h]
  show (timeFields timeAsString).map mktime = _
  rw [hfields]
  rfl

/-- The zone is cut off. -/
theorem convertTime_dated {TimePoint : Type} {mktime : Tm → TimePoint} {time : ASN1} {d : DateTime} {zone : Zone}
    (h : Dated openSSL time d zone) : convertTime openSSL mktime time = .ok (mktime (tmOf d)) := by
  obtain ⟨digits, hwritten, htime⟩ := h
  exact convertTime_of_read htime (timeFields_written hwritten zone.noDigit_suffix)

/-- The zone is cut off, and the clock reaches the date. -/
theorem convertTime_holds {time : ASN1} {d : DateTime} {zone : Zone} (h : Dated openSSL time d zone)
    (hholds : clock.Holds d) :
    convertTime openSSL (fun time => clock.from_time_t (clock.mktime time)) time =
      .ok (clock.mktime (tmOf d) * clock.ticks) := by
  rw [convertTime_dated h, clock.from_time_t_eq _ hholds]

/-- The answer, once both dates are read. -/
theorem dateIsValid_eq {notBefore notAfter : DateTime} {zone zone' : Zone}
    (hbefore : Dated openSSL handle.notBefore notBefore zone)
    (hafter : Dated openSSL handle.notAfter notAfter zone')
    (hholds : clock.Holds notBefore) (hholds' : clock.Holds notAfter) :
    dateIsValid openSSL clock handle now = .ok (decide
      (clock.mktime (tmOf notBefore) * clock.ticks < now ∧ now < clock.mktime (tmOf notAfter) * clock.ticks)) := by
  rw [dateIsValid, validNotBefore, validNotAfter, convertTime_holds hbefore hholds,
    convertTime_holds hafter hholds', Bool.decide_and]
  rfl

/-! ## Windows of time -/

/-- A window that contains another one begins before it and ends after it. -/
theorem window_le {a b a' b' k : Int} (hk : 1 < k) (hab : a < b)
    (h : ∀ x, a * k < x ∧ x < b * k → a' * k < x ∧ x < b' * k) : a' ≤ a ∧ b ≤ b' := by
  have hwide : a * k + k ≤ b * k := by
    have hstep : (a + 1) * k ≤ b * k := Int.mul_le_mul_of_nonneg_right hab (by omega)
    rwa [Int.add_mul, Int.one_mul] at hstep
  have hfirst := h (a * k + 1) (by omega)
  have hlast := h (b * k - 1) (by omega)
  constructor
  · exact Int.le_of_mul_le_mul_right (by omega) (Int.lt_trans Int.zero_lt_one hk)
  · exact Int.le_of_mul_le_mul_right (by omega) (Int.lt_trans Int.zero_lt_one hk)

theorem not_in_window {a b k x : Int} (hk : 1 < k) (h : b ≤ a) : ¬ (a * k < x ∧ x < b * k) := by
  have hle : b * k ≤ a * k := Int.mul_le_mul_of_nonneg_right h (by omega)
  omega

/-- Two windows contain the same instants if they are the same or both empty. -/
theorem window_eq_iff {a b a' b' k : Int} (hk : 1 < k) :
    (∀ x, a * k < x ∧ x < b * k ↔ a' * k < x ∧ x < b' * k) ↔ a = a' ∧ b = b' ∨ b ≤ a ∧ b' ≤ a' := by
  constructor
  · intro h
    by_cases hab : a < b
    · have hout := window_le hk hab fun x => (h x).mp
      have hin := window_le hk (by omega) fun x => (h x).mpr
      omega
    · by_cases hab' : a' < b'
      · have hin := window_le hk hab' fun x => (h x).mpr
        omega
      · omega
  · rintro (⟨rfl, rfl⟩ | ⟨hle, hle'⟩) x
    · exact Iff.rfl
    · exact iff_of_false (not_in_window hk hle) (not_in_window hk hle')

/-! ## The zone of the system -/

/-- The window that the dates are read as. -/
theorem dateIsValid_iff {offset : Int} (hmktime : ∀ d, clock.mktime (tmOf d) = d.seconds - offset)
    {notBefore notAfter : DateTime} {zone zone' : Zone} (hbefore : Dated openSSL handle.notBefore notBefore zone)
    (hafter : Dated openSSL handle.notAfter notAfter zone')
    (hholds : clock.Holds notBefore) (hholds' : clock.Holds notAfter) :
    dateIsValid openSSL clock handle now = .ok true ↔
      (notBefore.seconds - offset) * clock.ticks < now ∧ now < (notAfter.seconds - offset) * clock.ticks := by
  rw [dateIsValid_eq hbefore hafter hholds hholds', hmktime, hmktime, Except.ok.injEq, decide_eq_true_iff]

/-- **Where the answer is right at all times**: the system's clocks are ahead by what is written behind each of the
dates, or there is no time between the dates, neither as they are meant nor as they are read. -/
theorem dateIsValid_right_iff {offset : Int} (hmktime : ∀ d, clock.mktime (tmOf d) = d.seconds - offset)
    {notBefore notAfter : DateTime} {zone zone' : Zone} (hbefore : Dated openSSL handle.notBefore notBefore zone)
    (hafter : Dated openSSL handle.notAfter notAfter zone')
    (hholds : clock.Holds notBefore) (hholds' : clock.Holds notAfter) :
    (∀ now, dateIsValid openSSL clock handle now = .ok true ↔
        instant notBefore zone * clock.ticks < now ∧ now < instant notAfter zone' * clock.ticks) ↔
      zone.offset = offset ∧ zone'.offset = offset ∨
        instant notAfter zone' ≤ instant notBefore zone ∧ notAfter.seconds ≤ notBefore.seconds := by
  simp only [dateIsValid_iff hmktime hbefore hafter hholds hholds']
  rw [window_eq_iff clock.one_lt_ticks]
  unfold instant
  omega

/-- What `mktime` makes of the fields where the clocks are always ahead by the offset. -/
def mktimeAt (offset : Int) (time : Tm) : Int :=
  let year := (time.tm_year + 1900).toNat
  let days := daysBeforeYear year + daysBeforeMonth year (time.tm_mon + 1).toNat + (time.tm_mday - 1)
  days * 86400 + time.tm_hour * 3600 + time.tm_min * 60 + time.tm_sec - daysBeforeYear 1970 * 86400 - offset

theorem mktimeAt_tmOf (offset : Int) (d : DateTime) : mktimeAt offset (tmOf d) = d.seconds - offset := by
  have hyear : ((d.year : Int) - 1900 + 1900).toNat = d.year := by omega
  have hmonth : ((d.month : Int) - 1 + 1).toNat = d.month := by omega
  have hday := d.day_pos
  unfold mktimeAt tmOf DateTime.seconds DateTime.minutes DateTime.days
  dsimp only
  rw [hyear, hmonth]
  omega

/-- A clock of nanoseconds. -/
def nanoseconds (mktime : Tm → Int) : SystemClock :=
  ⟨mktime, 1000000000, fun time => time * 1000000000, by decide, fun _ _ => rfl⟩

/-- In nanoseconds the dates of this century are in reach, whatever the zone. -/
theorem nanoseconds_holds {mktime : Tm → Int} {d : DateTime} {offset : Int}
    (hmktime : mktime (tmOf d) = d.seconds - offset) (hoffset : 0 ≤ offset ∧ offset ≤ 86400)
    (hyear : 2000 ≤ d.year ∧ d.year ≤ 2099) : (nanoseconds mktime).Holds d := by
  have hbounds := d.seconds_bounds
  show Fits (mktime (tmOf d) * 1000000000)
  rw [hmktime]
  unfold Fits
  omega

/-- From the end of a leap day on, for the rest of the decade. -/
def sixYears : Validity Bytes := ⟨ascii "240229235959Z", ascii "20300101000000Z"⟩

theorem dated_notBefore : Dated Certificate.names sixYears.notBefore leapDay .Z :=
  ⟨_, .twelve (by decide) (by decide), rfl⟩

theorem dated_notAfter : Dated Certificate.names sixYears.notAfter (DateTime.newYear 2030) .Z :=
  ⟨_, .fourteen (by decide), rfl⟩

/-- An hour ahead of Greenwich the answer is wrong at some time. -/
theorem dateIsValid_right_iff_hour_ahead :
    ¬ ∀ now, dateIsValid Certificate.names (nanoseconds (mktimeAt 3600)) sixYears now = .ok true ↔
      instant leapDay .Z * 1000000000 < now ∧ now < instant (DateTime.newYear 2030) .Z * 1000000000 := by
  have hlt : leapDay.seconds < (DateTime.newYear 2030).seconds := DateTime.seconds_lt (by decide)
  have hholds : ∀ d : DateTime, 2000 ≤ d.year ∧ d.year ≤ 2099 → (nanoseconds (mktimeAt 3600)).Holds d := fun d =>
    nanoseconds_holds (mktimeAt_tmOf 3600 d) (by decide)
  have hmktime : ∀ d, (nanoseconds (mktimeAt 3600)).mktime (tmOf d) = d.seconds - 3600 := mktimeAt_tmOf 3600
  intro hright
  rcases (dateIsValid_right_iff hmktime dated_notBefore dated_notAfter (hholds _ (by decide))
    (hholds _ (by decide))).mp hright with ⟨hzone, -⟩ | ⟨-, hle⟩
  · exact absurd hzone (by decide)
  · omega

/-- In a zone whose rules may change: a date can be read by any of the offsets that the zone ever has. -/
def SystemClock.Local (clock : SystemClock) (offset : Int → Int) : Prop :=
  ∀ d, ∃ time, clock.mktime (tmOf d) = d.seconds - offset time

/-- A date is read at most as far from its moment as the zone is from those of the system. -/
theorem read_near {offset : Int → Int} (hmktime : clock.Local offset) {d : DateTime} {zone : Zone} {apart : Int}
    (hzone : ∀ time, |zone.offset - offset time| ≤ apart) :
    |clock.mktime (tmOf d) * clock.ticks - instant d zone * clock.ticks| ≤ apart * clock.ticks := by
  obtain ⟨time, htime⟩ := hmktime d
  have hoffset : d.seconds - offset time - (d.seconds - zone.offset) = zone.offset - offset time := by omega
  have hpos : 0 ≤ clock.ticks := Int.le_of_lt (Int.lt_trans Int.zero_lt_one clock.one_lt_ticks)
  rw [htime, instant, ← Int.sub_mul, hoffset, abs_mul, abs_of_nonneg hpos]
  exact Int.mul_le_mul_of_nonneg_right (hzone time) hpos

/-- **How far the answer can be off**: it is right unless the clock is as near to one of the dates as the zones that
are written and those of the system are apart. -/
theorem dateIsValid_of_far {offset : Int → Int} (hmktime : clock.Local offset)
    {notBefore notAfter : DateTime} {zone zone' : Zone} (hbefore : Dated openSSL handle.notBefore notBefore zone)
    (hafter : Dated openSSL handle.notAfter notAfter zone')
    (hholds : clock.Holds notBefore) (hholds' : clock.Holds notAfter) {apart : Int}
    (hzone : ∀ time, |zone.offset - offset time| ≤ apart) (hzone' : ∀ time, |zone'.offset - offset time| ≤ apart)
    (hnow : apart * clock.ticks < |now - instant notBefore zone * clock.ticks|)
    (hnow' : apart * clock.ticks < |now - instant notAfter zone' * clock.ticks|) :
    dateIsValid openSSL clock handle now = .ok (decide
      (instant notBefore zone * clock.ticks < now ∧ now < instant notAfter zone' * clock.ticks)) := by
  have hfirst := read_near hmktime (d := notBefore) hzone
  have hlast := read_near hmktime (d := notAfter) hzone'
  rw [dateIsValid_eq hbefore hafter hholds hholds']
  refine congrArg Except.ok (decide_eq_decide.mpr ?_)
  rw [abs_le] at hfirst hlast
  rw [lt_abs] at hnow hnow'
  omega

/-- Clocks that are put forward by an hour at some time. -/
def mktimeSummer (summer : Int) (time : Tm) : Int :=
  if mktimeAt 3600 time < summer then mktimeAt 3600 time else mktimeAt 7200 time

theorem mktimeSummer_tmOf (summer : Int) (d : DateTime) :
    mktimeSummer summer (tmOf d) = d.seconds - 3600 ∨ mktimeSummer summer (tmOf d) = d.seconds - 7200 := by
  unfold mktimeSummer
  split
  · exact Or.inl (mktimeAt_tmOf _ d)
  · exact Or.inr (mktimeAt_tmOf _ d)

/-- Clocks that are put forward in March 2024, more than two hours before the first date. -/
theorem dateIsValid_of_far_summer :
    dateIsValid Certificate.names (nanoseconds (mktimeSummer 1711846800)) sixYears
      ((leapDay.seconds - 7201) * 1000000000) = .ok false := by
  have hlocal : (nanoseconds (mktimeSummer 1711846800)).Local fun time =>
      if time < 1711846800 then 3600 else 7200 := by
    intro d
    rcases mktimeSummer_tmOf 1711846800 d with h | h
    · exact ⟨0, h⟩
    · exact ⟨1711846800, h⟩
  have hapart : ∀ time : Int, |Zone.Z.offset - if time < 1711846800 then 3600 else 7200| ≤ 7200 := by
    intro time
    show |0 - (if time < 1711846800 then 3600 else 7200)| ≤ (7200 : Int)
    split <;> decide
  have hholds : ∀ d : DateTime, 2000 ≤ d.year ∧ d.year ≤ 2099 →
      (nanoseconds (mktimeSummer 1711846800)).Holds d := by
    intro d hyear
    rcases mktimeSummer_tmOf 1711846800 d with h | h
    · exact nanoseconds_holds h (by decide) hyear
    · exact nanoseconds_holds h (by decide) hyear
  have hlt : leapDay.seconds < (DateTime.newYear 2030).seconds := DateTime.seconds_lt (by decide)
  have hanswer : dateIsValid Certificate.names (nanoseconds (mktimeSummer 1711846800)) sixYears
      ((leapDay.seconds - 7201) * 1000000000) = _ :=
    dateIsValid_of_far hlocal dated_notBefore dated_notAfter (hholds _ (by decide)) (hholds _ (by decide)) hapart
      hapart (lt_abs.mpr (Or.inr ?_)) (lt_abs.mpr (Or.inr ?_))
  · rw [hanswer, decide_eq_false]
    intro hin
    rw [instant_Z] at hin
    have hfirst : leapDay.seconds * 1000000000 < (leapDay.seconds - 7201) * 1000000000 := hin.1
    omega
  · rw [instant_Z]
    show 7200 * 1000000000 < -((leapDay.seconds - 7201) * 1000000000 - leapDay.seconds * 1000000000)
    omega
  · rw [instant_Z]
    show 7200 * 1000000000 <
      -((leapDay.seconds - 7201) * 1000000000 - (DateTime.newYear 2030).seconds * 1000000000)
    omega

/-! ## The years of certificates -/

/-- How the dates of certificates are encoded: with two digits of the year for the hundred years around 2000, where
50 is the first one, and with four digits afterwards. -/
inductive DER (d : DateTime) : Bytes → Prop
  | utcTime (h : 1950 ≤ d.year) (h' : d.year ≤ 2049) :
      DER d (decimal 2 (d.year % 100) ++ digitsBehindYear d ++ Zone.Z.suffix)
  | generalizedTime (h : 2050 ≤ d.year) (h' : d.year ≤ 9999) :
      DER d (decimal 4 d.year ++ digitsBehindYear d ++ Zone.Z.suffix)

/-- A hundred years later there is the same day. -/
def inThisCentury (d : DateTime) (h : 1950 ≤ d.year) (h' : d.year < 2000) : DateTime :=
  { d with
    year := d.year + 100
    day_le := by
      have hleap : IsLeap (d.year + 100) ↔ IsLeap d.year := by
        unfold IsLeap
        omega
      have hday := d.day_le
      unfold daysInMonth at hday ⊢
      simpa only [hleap] using hday }

/-- From 2000 on a date is read as it is meant, and before it as one that is a hundred years later. -/
theorem dated_of_der {time : ASN1} {d : DateTime} {s : Bytes} (h : DER d s)
    (htime : openSSL.ASN1_STRING_to_UTF8 time = some s) :
    2000 ≤ d.year ∧ Dated openSSL time d .Z ∨
      ∃ e : DateTime, d.year < 2000 ∧ e.year = d.year + 100 ∧ 2050 ≤ e.year ∧ Dated openSSL time e .Z := by
  cases h with
  | utcTime h h' =>
    by_cases hyear : 2000 ≤ d.year
    · exact Or.inl ⟨hyear, _, .twelve hyear (by omega), htime⟩
    · have hcentury : d.year < 2000 := by omega
      refine Or.inr ⟨inThisCentury d h hcentury, hcentury, rfl, Nat.add_le_add_right h 100, _, .twelve ?_ ?_, ?_⟩
      · show 2000 ≤ d.year + 100
        omega
      · show d.year + 100 ≤ 2099
        omega
      · show _ = some (decimal 2 ((d.year + 100) % 100) ++ digitsBehindYear d ++ Zone.Z.suffix)
        rw [Nat.add_mod_right]
        exact htime
  | generalizedTime h h' => exact Or.inl ⟨by omega, _, .fourteen h', htime⟩

/-- **Which years are read right?** Where the system keeps the time of Greenwich, and its clock reaches the century
and the years of the certificate, the answer on a certificate that is ever valid is right at all times exactly for
those that became valid in 2000 or later. -/
theorem dateIsValid_der_iff (hmktime : ∀ d, clock.mktime (tmOf d) = d.seconds) {notBefore notAfter : DateTime}
    {s s' : Bytes} (hbefore : DER notBefore s) (hafter : DER notAfter s')
    (hs : openSSL.ASN1_STRING_to_UTF8 handle.notBefore = some s)
    (hs' : openSSL.ASN1_STRING_to_UTF8 handle.notAfter = some s')
    (hholds : ∀ d : DateTime, 2000 ≤ d.year → d.year ≤ 2099 ∨ d.year ≤ notAfter.year → clock.Holds d)
    (hlt : notBefore.seconds < notAfter.seconds) :
    (∀ now, dateIsValid openSSL clock handle now = .ok true ↔
        notBefore.seconds * clock.ticks < now ∧ now < notAfter.seconds * clock.ticks) ↔
      2000 ≤ notBefore.year := by
  have hzero : ∀ d, clock.mktime (tmOf d) = d.seconds - 0 := fun d => (hmktime d).trans (Int.sub_zero _).symm
  have hread : ∀ {d e : DateTime}, Dated openSSL handle.notBefore d .Z → Dated openSSL handle.notAfter e .Z →
      clock.Holds d → clock.Holds e →
      ((∀ now, dateIsValid openSSL clock handle now = .ok true ↔
          notBefore.seconds * clock.ticks < now ∧ now < notAfter.seconds * clock.ticks) ↔
        d.seconds = notBefore.seconds ∧ e.seconds = notAfter.seconds) := by
    intro d e hd he hholdsd hholdse
    simp only [dateIsValid_iff hzero hd he hholdsd hholdse]
    rw [window_eq_iff clock.one_lt_ticks]
    omega
  have horder : notBefore.year ≤ notAfter.year := by
    by_contra hyear
    have hle : notAfter.seconds ≤ notBefore.seconds := DateTime.seconds_le (by omega)
    omega
  -- the end is read as a date of this century or as the one that it is
  obtain ⟨e, he, hholdse, hend⟩ : ∃ e, Dated openSSL handle.notAfter e .Z ∧ clock.Holds e ∧
      (2000 ≤ notAfter.year → e = notAfter) := by
    rcases dated_of_der hafter hs' with ⟨hyear', he⟩ | ⟨e, hyear', he, hlater, hdated'⟩
    · exact ⟨_, he, hholds _ hyear' (Or.inr (Nat.le_refl _)), fun _ => rfl⟩
    · exact ⟨e, hdated', hholds e (by omega) (Or.inl (by omega)), fun h => absurd h (by omega)⟩
  rcases dated_of_der hbefore hs with ⟨hyear, hd⟩ | ⟨d, hyear, hd, hlater, hdated⟩
  · obtain rfl := hend (by omega)
    have hholdsd := hholds notBefore hyear (Or.inr horder)
    exact (hread hd he hholdsd hholdse).trans (iff_of_true ⟨rfl, rfl⟩ hyear)
  · have hne : notBefore.seconds < d.seconds := DateTime.seconds_lt (by omega)
    rw [hread hdated he (hholds d (by omega) (Or.inl (by omega))) hholdse]
    omega

/-- A certificate from 1999 for eleven years. -/
theorem dateIsValid_der_iff_1999 :
    ¬ ∀ now, dateIsValid Certificate.names (nanoseconds (mktimeAt 0))
        ⟨ascii "990101000000Z", ascii "100101000000Z"⟩ now = .ok true ↔
      (DateTime.newYear 1999).seconds * 1000000000 < now ∧ now < (DateTime.newYear 2010).seconds * 1000000000 := by
  have hbefore : DER (DateTime.newYear 1999) (ascii "990101000000Z") := .utcTime (by decide) (by decide)
  have hafter : DER (DateTime.newYear 2010) (ascii "100101000000Z") := .utcTime (by decide) (by decide)
  have hmktime : ∀ d, (nanoseconds (mktimeAt 0)).mktime (tmOf d) = d.seconds := fun d =>
    (mktimeAt_tmOf 0 d).trans (Int.sub_zero _)
  have hholds : ∀ d : DateTime, 2000 ≤ d.year → d.year ≤ 2099 ∨ d.year ≤ 2010 →
      (nanoseconds (mktimeAt 0)).Holds d := by
    intro d hfirst hlast
    exact nanoseconds_holds (mktimeAt_tmOf 0 d) (by decide) ⟨hfirst, by omega⟩
  intro hright
  have hlt : (DateTime.newYear 1999).seconds < (DateTime.newYear 2010).seconds := DateTime.seconds_lt (by decide)
  have hyear := (dateIsValid_der_iff hmktime hbefore hafter rfl rfl hholds hlt).mp hright
  exact absurd hyear (by decide)

end Communique
