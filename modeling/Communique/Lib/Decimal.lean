import Mathlib.Data.List.Basic
import Mathlib.Tactic.Ring

/-!
# Numbers as decimal digits

* `decimal n x` : the `n` digits of `x` in ASCII, the most significant one first; `ofDecimal` reads them;
* `isDigit_of_mem_decimal`, `length_decimal` : they are `n` digits;
* `ofDecimal_decimal`, `ofDecimal_lt` : reading them gives the number back, and any `n` digits are below `10 ^ n`.
-/

namespace Decimal

/-- The characters from `0` to `9`. -/
def isDigit (c : UInt8) : Bool := 48 ≤ c && c ≤ 57

/-- The `n` digits of `x`, the most significant one first. -/
def decimal : Nat → Nat → List UInt8
  | 0, _ => []
  | n + 1, x => UInt8.ofNat (48 + x / 10 ^ n % 10) :: decimal n (x % 10 ^ n)

/-- The value of a string of digits. -/
def ofDecimal (digits : List UInt8) : Nat := digits.foldl (fun x c => x * 10 + (c.toNat - 48)) 0

theorem isDigit_iff {c : UInt8} : isDigit c = true ↔ 48 ≤ c.toNat ∧ c.toNat ≤ 57 := by
  simp [isDigit, UInt8.le_iff_toNat_le]

@[simp] theorem length_decimal (n x : Nat) : (decimal n x).length = n := by
  induction n generalizing x with
  | zero => rfl
  | succ n ih => rw [decimal, List.length_cons, ih]

theorem toNat_digit (x : Nat) : (UInt8.ofNat (48 + x % 10)).toNat = 48 + x % 10 := by
  rw [UInt8.toNat_ofNat']
  omega

theorem isDigit_of_mem_decimal {n x : Nat} : ∀ c ∈ decimal n x, isDigit c = true := by
  induction n generalizing x with
  | zero => simp [decimal]
  | succ n ih =>
    intro c hc
    rw [decimal] at hc
    rcases List.mem_cons.mp hc with rfl | hc
    · rw [isDigit_iff, toNat_digit]
      omega
    · exact ih c hc

theorem foldl_digits (digits : List UInt8) (acc : Nat) :
    digits.foldl (fun x c => x * 10 + (c.toNat - 48)) acc = acc * 10 ^ digits.length + ofDecimal digits := by
  induction digits generalizing acc with
  | nil => simp [ofDecimal]
  | cons c digits ih =>
    rw [ofDecimal, List.foldl_cons, List.foldl_cons, ih, ih (0 * 10 + (c.toNat - 48)), List.length_cons]
    ring

theorem ofDecimal_cons (c : UInt8) (digits : List UInt8) :
    ofDecimal (c :: digits) = (c.toNat - 48) * 10 ^ digits.length + ofDecimal digits := by
  rw [ofDecimal, List.foldl_cons, foldl_digits]
  ring

/-- Reading the digits of a number gives it back. -/
theorem ofDecimal_decimal {n x : Nat} (h : x < 10 ^ n) : ofDecimal (decimal n x) = x := by
  induction n generalizing x with
  | zero =>
    rw [pow_zero, Nat.lt_one_iff] at h
    rw [h]
    rfl
  | succ n ih =>
    have hpos : 0 < 10 ^ n := Nat.pow_pos (by decide)
    have hq : x / 10 ^ n < 10 := by
      rw [Nat.div_lt_iff_lt_mul hpos, ← pow_succ']
      exact h
    rw [decimal, ofDecimal_cons, length_decimal, ih (Nat.mod_lt _ hpos), toNat_digit, Nat.add_sub_cancel_left,
      Nat.mod_eq_of_lt hq, Nat.mul_comm, Nat.div_add_mod]

theorem ofDecimal_lt {digits : List UInt8} (h : ∀ c ∈ digits, isDigit c = true) :
    ofDecimal digits < 10 ^ digits.length := by
  induction digits with
  | nil => decide
  | cons c digits ih =>
    rw [List.forall_mem_cons, isDigit_iff] at h
    have hrest := ih h.2
    have hc : c.toNat - 48 + 1 ≤ 10 := by omega
    calc ofDecimal (c :: digits) = (c.toNat - 48) * 10 ^ digits.length + ofDecimal digits :=
          ofDecimal_cons c digits
      _ < (c.toNat - 48 + 1) * 10 ^ digits.length := by rw [Nat.succ_mul]; omega
      _ ≤ 10 * 10 ^ digits.length := Nat.mul_le_mul_right _ hc
      _ = 10 ^ (c :: digits).length := by rw [List.length_cons, pow_succ, Nat.mul_comm]

end Decimal
