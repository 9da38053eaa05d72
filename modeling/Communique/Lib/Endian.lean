import Mathlib.Data.List.Basic
import Mathlib.Tactic.Ring

/-!
# Numbers as bytes

* `bigEndian n x` : the `n` bytes of `x`, the most significant one first; `ofBigEndian` reads them;
* `inMemory`, `ofMemory` : the bytes of a number as a host of either byte order holds it;
* `byteSwap`, `toNetwork`, `ofNetwork` : conversion between a host's order and the network's;
* `inMemory_toNetwork`, `ofNetwork_ofMemory` : converted, the bytes do not depend on the host.
-/

namespace Endian

/-- The byte order of a host. -/
inductive Order
  | little
  | big
  deriving DecidableEq

/-- The `n` bytes of `x`, the most significant one first. -/
def bigEndian : Nat → Nat → List UInt8
  | 0, _ => []
  | n + 1, x => UInt8.ofNat (x / 256 ^ n) :: bigEndian n (x % 256 ^ n)

def ofBigEndian (bytes : List UInt8) : Nat := bytes.foldl (fun x b => x * 256 + b.toNat) 0

@[simp] theorem length_bigEndian (n x : Nat) : (bigEndian n x).length = n := by
  induction n generalizing x with
  | zero => rfl
  | succ n ih => rw [bigEndian, List.length_cons, ih]

theorem foldl_bytes (bytes : List UInt8) (acc : Nat) :
    bytes.foldl (fun x b => x * 256 + b.toNat) acc = acc * 256 ^ bytes.length + ofBigEndian bytes := by
  induction bytes generalizing acc with
  | nil => simp [ofBigEndian]
  | cons b bytes ih =>
    rw [ofBigEndian, List.foldl_cons, List.foldl_cons, ih, ih (0 * 256 + b.toNat), List.length_cons]
    ring

theorem ofBigEndian_cons (b : UInt8) (bytes : List UInt8) :
    ofBigEndian (b :: bytes) = b.toNat * 256 ^ bytes.length + ofBigEndian bytes := by
  rw [ofBigEndian, List.foldl_cons, foldl_bytes]
  ring

theorem ofBigEndian_lt (bytes : List UInt8) : ofBigEndian bytes < 256 ^ bytes.length := by
  induction bytes with
  | nil => decide
  | cons b bytes ih =>
    have hb : b.toNat + 1 ≤ 256 := b.toNat_lt
    calc ofBigEndian (b :: bytes) = b.toNat * 256 ^ bytes.length + ofBigEndian bytes :=
          ofBigEndian_cons b bytes
      _ < (b.toNat + 1) * 256 ^ bytes.length := by rw [Nat.succ_mul]; omega
      _ ≤ 256 * 256 ^ bytes.length := Nat.mul_le_mul_right _ hb
      _ = 256 ^ (b :: bytes).length := by rw [List.length_cons, pow_succ, Nat.mul_comm]

/-- Reading the bytes of a number gives it back. -/
theorem ofBigEndian_bigEndian {n x : Nat} (h : x < 256 ^ n) : ofBigEndian (bigEndian n x) = x := by
  induction n generalizing x with
  | zero =>
    rw [pow_zero, Nat.lt_one_iff] at h
    rw [h]
    rfl
  | succ n ih =>
    have hpos : 0 < 256 ^ n := Nat.pow_pos (by decide)
    have hq : x / 256 ^ n < 256 := by
      rw [Nat.div_lt_iff_lt_mul hpos, ← pow_succ']
      exact h
    rw [bigEndian, ofBigEndian_cons, length_bigEndian, ih (Nat.mod_lt _ hpos), UInt8.toNat_ofNat',
      Nat.mod_eq_of_lt (by simpa using hq), Nat.mul_comm, Nat.div_add_mod]

/-- The bytes of the number read from bytes are these bytes. -/
theorem bigEndian_ofBigEndian (bytes : List UInt8) :
    bigEndian bytes.length (ofBigEndian bytes) = bytes := by
  induction bytes with
  | nil => rfl
  | cons b bytes ih =>
    have hlt := ofBigEndian_lt bytes
    have hpos : 0 < 256 ^ bytes.length := Nat.pow_pos (by decide)
    rw [List.length_cons, bigEndian, ofBigEndian_cons, Nat.mul_comm,
      Nat.mul_add_div hpos, Nat.div_eq_of_lt hlt, Nat.add_zero, Nat.mul_add_mod,
      Nat.mod_eq_of_lt hlt, ih, UInt8.ofNat_toNat]

/-! ## Hosts -/

/-- The `n` bytes of `x` in the memory of a host. -/
def inMemory : Order → Nat → Nat → List UInt8
  | .big, n, x => bigEndian n x
  | .little, n, x => (bigEndian n x).reverse

/-- The number whose bytes a host finds in its memory. -/
def ofMemory : Order → List UInt8 → Nat
  | .big, bytes => ofBigEndian bytes
  | .little, bytes => ofBigEndian bytes.reverse

/-- The number with the `n` bytes of `x` in the other order. -/
def byteSwap (n x : Nat) : Nat := ofBigEndian (bigEndian n x).reverse

/-- Host order to network order, which is big-endian. -/
def toNetwork : Order → Nat → Nat → Nat
  | .big, _, x => x
  | .little, n, x => byteSwap n x

/-- Network order to host order. -/
def ofNetwork : Order → Nat → Nat → Nat
  | .big, _, x => x
  | .little, n, x => byteSwap n x

/-- A number in network order lies big-endian in the memory of every host. -/
theorem inMemory_toNetwork (order : Order) (n x : Nat) :
    inMemory order n (toNetwork order n x) = bigEndian n x := by
  cases order with
  | big => rfl
  | little =>
    have h := bigEndian_ofBigEndian (bigEndian n x).reverse
    rw [List.length_reverse, length_bigEndian] at h
    rw [inMemory, toNetwork, byteSwap, h, List.reverse_reverse]

/-- Every host reads bytes in network order as the same number. -/
theorem ofNetwork_ofMemory (order : Order) (bytes : List UInt8) :
    ofNetwork order bytes.length (ofMemory order bytes) = ofBigEndian bytes := by
  cases order with
  | big => rfl
  | little =>
    have h := bigEndian_ofBigEndian bytes.reverse
    rw [List.length_reverse] at h
    rw [ofNetwork, ofMemory, byteSwap, h, List.reverse_reverse]

end Endian
