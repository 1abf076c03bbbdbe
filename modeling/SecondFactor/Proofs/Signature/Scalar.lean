import Mathlib.Data.List.Induction
import Mathlib.Tactic.Linarith
import Mathlib.Tactic.LinearCombination
import Mathlib.Tactic.Ring
import SecondFactor.Curve.Field
import SecondFactor.Signature.Scalar

/-!
# Laws of Scalars as Bytes

The comparison of the bytes of two numbers is the comparison of the numbers (`compare_eq`), so the
range checks on the numbers of a signature are those on the integers (`isLow_iff`, `isValid_iff`).
The subtraction with borrows is that of the integers as well (`subtract_eq`), so the negative of a
number is what the order exceeds it by (`toNat_negate`).
-/

namespace SecondFactor

namespace Bytes

/-- The bytes in front count for as many digits as stand behind them. -/
theorem toNat_append (a b : Bytes) : toNat (a ++ b) = toNat a * 256 ^ b.length + toNat b := by
  induction b using List.reverseRecOn with
  | nil => simp
  | append_singleton b d ih =>
    rw [← List.append_assoc, toNat_append_singleton, ih, toNat_append_singleton,
      List.length_append, List.length_singleton, pow_succ]
    ring

/-- The first byte counts for as many digits as stand behind it. -/
theorem toNat_cons (d : UInt8) (b : Bytes) :
    toNat (d :: b) = d.toNat * 256 ^ b.length + toNat b := by
  rw [← List.singleton_append, toNat_append, ← List.nil_append [d], toNat_append_singleton,
    toNat_nil, Nat.zero_mul, Nat.zero_add]

/-- A number is below the power that its width tells. -/
theorem toNat_lt (b : Bytes) : toNat b < 256 ^ b.length := by
  induction b with
  | nil => decide
  | cons d b ih =>
    have hd := d.toNat_lt
    rw [toNat_cons, List.length_cons, pow_succ]
    nlinarith

end Bytes

namespace Signature

open Curve

/-! ## Comparing -/

/-- The next digits decide a comparison only if the digits before them are equal. -/
theorem step_digits {m n x y : Nat} (hx : x < 256) (hy : y < 256) :
    m * 256 + x < n * 256 + y ↔ m < n ∨ ¬(m < n ∨ n < m) ∧ x < y := by
  omega

/-- What has been decided after some pairs of digits is how the numbers of these digits compare. -/
theorem foldl_step (pairs : List (UInt8 × UInt8)) :
    pairs.foldl (fun c (x, y) => Comparison.step c x y) {} =
      ⟨decide (Bytes.toNat (pairs.map Prod.fst) < Bytes.toNat (pairs.map Prod.snd)),
        decide (Bytes.toNat (pairs.map Prod.snd) < Bytes.toNat (pairs.map Prod.fst))⟩ := by
  induction pairs using List.reverseRecOn with
  | nil => rfl
  | append_singleton pairs pair ih =>
    obtain ⟨x, y⟩ := pair
    rw [List.foldl_append, ih]
    simp only [List.foldl_cons, List.foldl_nil, Comparison.step, List.map_append, List.map_cons,
      List.map_nil, Bytes.toNat_append_singleton, UInt8.lt_iff_toNat_lt,
      step_digits x.toNat_lt y.toNat_lt, step_digits y.toNat_lt x.toNat_lt, Bool.decide_or,
      Bool.decide_and, decide_not]
    rw [Bool.or_comm (decide (_ < _)) (decide (_ < _))]

/-- Comparing the bytes of two numbers of equal width compares the numbers. -/
theorem compare_eq {a b : Bytes} (h : a.length = b.length) :
    compare a b =
      ⟨decide (Bytes.toNat a < Bytes.toNat b), decide (Bytes.toNat b < Bytes.toNat a)⟩ := by
  rw [compare, foldl_step, List.map_fst_zip (Nat.le_of_eq h),
    List.map_snd_zip (Nat.le_of_eq h.symm)]

/-! ## Ranges -/

/-- All bytes are zero exactly if the number is. -/
theorem foldl_isZero (b : Bytes) :
    b.foldl (fun zero d => zero && d == 0) true = decide (Bytes.toNat b = 0) := by
  induction b using List.reverseRecOn with
  | nil => rfl
  | append_singleton b d ih =>
    have hd : (d == 0) = decide (d.toNat = 0) := by
      rw [Bool.eq_iff_iff, beq_iff_eq, decide_eq_true_iff, ← UInt8.toNat_inj]
      rfl
    rw [List.foldl_append, ih, Bytes.toNat_append_singleton]
    simp only [List.foldl_cons, List.foldl_nil, hd, ← Bool.decide_and]
    congr 1
    rw [eq_iff_iff]
    omega

/-- A number counts as low exactly if it is below half the order, rounded down. -/
theorem isLow_iff {s : ScalarBytes} : isLow s = true ↔ s.toNat < order / 2 := by
  have hhalf : halfOrderBytes.toNat = order / 2 := by decide +kernel
  rw [isLow, compare_eq (s.length_eq.trans halfOrderBytes.length_eq.symm), decide_eq_true_iff,
    ← hhalf]
  rfl

theorem toNat_orderBytes : orderBytes.toNat = order := by
  decide +kernel

/-- A number is valid exactly if it is not zero and below the order. -/
theorem isValid_iff {s : ScalarBytes} : isValid s = true ↔ 0 < s.toNat ∧ s.toNat < order := by
  rw [isValid, compare_eq (s.length_eq.trans orderBytes.length_eq.symm), foldl_isZero,
    Bool.and_eq_true, Bool.not_eq_true', decide_eq_false_iff_not, decide_eq_true_iff,
    ← toNat_orderBytes, Nat.pos_iff_ne_zero]
  rfl

/-- The bytes of a number below the order denote it. -/
theorem toNat_ofNat_of_lt {n : Nat} (h : n < order) : (FixedBytes.ofNat 32 n).toNat = n := by
  have hcount : order < Bytes.count 32 := by decide +kernel
  exact Bytes.toNat_ofNat (Nat.lt_trans h hcount)

/-! ## Subtracting -/

/-- The difference of two digits less a borrow is the digit that is written, less the borrow that is
passed on. -/
theorem borrowStep_eq (a b : UInt8) {borrow : Int} (h : borrow = 0 ∨ borrow = 1) :
    ((borrowStep a b borrow).1.toNat : Int) - 256 * (borrowStep a b borrow).2 =
        a.toNat - b.toNat - borrow ∧
      ((borrowStep a b borrow).2 = 0 ∨ (borrowStep a b borrow).2 = 1) := by
  have ha := a.toNat_lt
  have hb := b.toNat_lt
  unfold borrowStep
  dsimp only
  -- On either side the digit is below 256, so none of it is cut off.
  split
  · refine ⟨?_, .inr rfl⟩
    rw [UInt8.toNat_ofNat']
    omega
  · refine ⟨?_, .inl rfl⟩
    rw [UInt8.toNat_ofNat']
    omega

/-- The digits of a difference denote it, less what the borrow stands for that is left. -/
theorem subtract_eq (pairs : List (UInt8 × UInt8)) :
    (Bytes.toNat (subtract pairs).1 : Int) - 256 ^ pairs.length * (subtract pairs).2 =
        Bytes.toNat (pairs.map Prod.fst) - Bytes.toNat (pairs.map Prod.snd) ∧
      ((subtract pairs).2 = 0 ∨ (subtract pairs).2 = 1) := by
  induction pairs with
  | nil => exact ⟨rfl, .inl rfl⟩
  | cons pair rest ih =>
    obtain ⟨a, b⟩ := pair
    obtain ⟨hrest, hborrow⟩ := ih
    obtain ⟨hstep, hpassed⟩ := borrowStep_eq a b hborrow
    refine ⟨?_, hpassed⟩
    simp only [subtract, List.map_cons, Bytes.toNat_cons, length_subtract, List.length_map,
      List.length_cons, Nat.cast_add, Nat.cast_mul, Nat.cast_pow, Nat.cast_ofNat, pow_succ]
    linear_combination 256 ^ rest.length * hstep + hrest

/-- The negative of a number is the order less the number, modulo the numbers of 32 bytes. -/
theorem toNat_negate (s : ScalarBytes) :
    ((negate s).toNat : Int) = (order - s.toNat) % 256 ^ 32 := by
  have hlength : orderBytes.bytes.length = s.bytes.length :=
    orderBytes.length_eq.trans s.length_eq.symm
  have hpairs : (orderBytes.bytes.zip s.bytes).length = 32 := by
    rw [List.length_zip, orderBytes.length_eq, s.length_eq, Nat.min_self]
  obtain ⟨hdigits, -⟩ := subtract_eq (orderBytes.bytes.zip s.bytes)
  rw [List.map_fst_zip (Nat.le_of_eq hlength), List.map_snd_zip (Nat.le_of_eq hlength.symm),
    hpairs] at hdigits
  change ((negate s).toNat : Int) - _ = orderBytes.toNat - s.toNat at hdigits
  have hlt : (negate s).toNat < 256 ^ (negate s).bytes.length := Bytes.toNat_lt _
  rw [(negate s).length_eq] at hlt
  -- Whatever borrow is left, it stands for a multiple of the numbers of 32 bytes.
  rw [← toNat_orderBytes, ← hdigits, Int.sub_mul_emod_self_left, Int.emod_eq_of_lt]
  · omega
  · exact_mod_cast hlt

/-- The negative of a number that is not above the order. -/
theorem toNat_negate_of_le {s : ScalarBytes} (h : s.toNat ≤ order) :
    (negate s).toNat = order - s.toNat := by
  have horder : order < 256 ^ 32 := by decide +kernel
  have hnegate := toNat_negate s
  rw [Int.emod_eq_of_lt (by omega) (by omega)] at hnegate
  omega

/-- The negative of a valid number is valid. -/
theorem isValid_negate {s : ScalarBytes} (h : isValid s = true) : isValid (negate s) = true := by
  obtain ⟨hpos, hlt⟩ := isValid_iff.1 h
  rw [isValid_iff, toNat_negate_of_le (Nat.le_of_lt hlt)]
  omega

end Signature

end SecondFactor
