import Mathlib.Data.List.Forall2
import SecondFactor.Proofs.Signature.Scalar

/-!
# The Arithmetic of Scalars

What is done on the 32 bytes of a scalar is the arithmetic of the number that they denote: the
range checks compare it, and the negative is what is left of the group order, where every difference
that the subtraction forms of two digits and a borrow fits the digit that is written for it
(`holds_differences`). Since 32 bytes are determined by their number (`Bytes.ofNat_toNat`), negating
a valid scalar twice gives it back. The main statement is `bytewise_arithmetic`.
-/

namespace SecondFactor

namespace Bytes

/-- Reading a number and writing it with as many digits gives the bytes back. -/
theorem ofNat_toNat (b : Bytes) : ofNat b.length (toNat b) = b := by
  induction b using List.reverseRecOn with
  | nil => rfl
  | append_singleton b d ih =>
    have hd : d.toNat < 256 := d.toNat_lt
    have hquotient : (toNat b * 256 + d.toNat) / 256 = toNat b := by omega
    have hdigit : UInt8.ofNat (toNat b * 256 + d.toNat) = d := by
      rw [← UInt8.toNat_inj, UInt8.toNat_ofNat']
      omega
    rw [List.length_append, List.length_singleton, ofNat, toNat_append_singleton, hquotient,
      hdigit, ih]

end Bytes

/-- Byte strings of one size are determined by their number. -/
theorem FixedBytes.toNat_injective {size : Nat} {a b : FixedBytes size} (h : a.toNat = b.toNat) :
    a = b := by
  ext1
  rw [← Bytes.ofNat_toNat a.bytes, ← Bytes.ofNat_toNat b.bytes, a.length_eq, b.length_eq]
  exact congrArg (Bytes.ofNat size) h

namespace Signature

open Curve

/-! ## The differences of digits -/

/-- The differences of digits given in pairs, each less the borrow that is passed on to it. -/
def differences : List (UInt8 × UInt8) → List Int
  | [] => []
  | (a, b) :: rest => (a.toNat - b.toNat - (subtract rest).2) :: differences rest

/-- A digit holds a difference: it is the difference itself, or exceeds a negative one by 256, and
nothing is cut off. -/
structure Holds (difference : Int) (digit : UInt8) : Prop where
  /-- The difference needs no more than one borrow. -/
  lower : -256 ≤ difference
  /-- The difference is no more than a digit. -/
  upper : difference ≤ 255
  /-- The value of the digit. -/
  digit_eq : (digit.toNat : Int) = if difference < 0 then difference + 256 else difference

/-- The digit that a step of the subtraction writes holds the difference that the step forms. -/
theorem holds_borrowStep (a b : UInt8) {borrow : Int} (h : borrow = 0 ∨ borrow = 1) :
    Holds (a.toNat - b.toNat - borrow) (borrowStep a b borrow).1 := by
  have ha := a.toNat_lt
  have hb := b.toNat_lt
  refine ⟨by omega, by omega, ?_⟩
  unfold borrowStep
  dsimp only
  -- On either side the value to write is below 256.
  split
  · rw [UInt8.toNat_ofNat']
    omega
  · rw [UInt8.toNat_ofNat']
    omega

/-- The digits that are written hold the differences that the subtraction forms, one by one. -/
theorem holds_differences (pairs : List (UInt8 × UInt8)) :
    List.Forall₂ Holds (differences pairs) (subtract pairs).1 := by
  induction pairs with
  | nil => exact .nil
  | cons pair rest ih =>
    obtain ⟨a, b⟩ := pair
    -- The borrow that the step receives is the one that the digits behind it leave.
    obtain ⟨-, hborrow⟩ := subtract_eq rest
    exact .cons (holds_borrowStep a b hborrow) ih

/-! ## Scalars and numbers -/

/-- Negating a valid number twice gives it back. -/
theorem negate_negate {s : ScalarBytes} (h : isValid s = true) : negate (negate s) = s := by
  obtain ⟨-, hlt⟩ := isValid_iff.1 h
  obtain ⟨-, hlt'⟩ := isValid_iff.1 (isValid_negate h)
  apply FixedBytes.toNat_injective
  rw [toNat_negate_of_le (Nat.le_of_lt hlt'), toNat_negate_of_le (Nat.le_of_lt hlt)]
  omega

/-- The checks and the negation of 32 bytes are those of the number that the bytes denote: valid is
a number from 1 up to the order, the order excluded, low is one strictly below half the order,
rounded down, and the negative is the order less the number, modulo the numbers of 32 bytes. Every
difference that the negation forms lies between -256 and 255, so that the digit written for it holds
it. Of a valid number the negative is valid, and its negative is the number again. -/
theorem bytewise_arithmetic :
    (∀ s : ScalarBytes,
      (isValid s = true ↔ 1 ≤ s.toNat ∧ s.toNat < order) ∧
      (isLow s = true ↔ s.toNat < (order - 1) / 2) ∧
      ((negate s).toNat : Int) = (order - s.toNat) % 2 ^ 256 ∧
      List.Forall₂ Holds (differences (orderBytes.bytes.zip s.bytes)) (negate s).bytes) ∧
    ∀ s : ScalarBytes, isValid s = true → isValid (negate s) = true ∧ negate (negate s) = s := by
  have hhalf : (order - 1) / 2 = order / 2 := by decide
  have hwidth : (2 : Int) ^ 256 = 256 ^ 32 := by decide
  refine ⟨fun s => ⟨isValid_iff, ?_, ?_, holds_differences _⟩, fun s hs => ?_⟩
  · rw [hhalf]
    exact isLow_iff
  · rw [hwidth]
    exact toNat_negate s
  · exact ⟨isValid_negate hs, negate_negate hs⟩

/-- The greatest valid number is the negative of the least one, with borrows from end to end on the
way back. -/
theorem bytewise_arithmetic_greatest :
    isValid (.ofNat 32 (order - 1)) = true ∧
      negate (.ofNat 32 (order - 1)) = .ofNat 32 1 ∧
      negate (negate (.ofNat 32 (order - 1))) = .ofNat 32 (order - 1) := by
  have hvalid : isValid (.ofNat 32 (order - 1)) = true := by decide +kernel
  have hnegate : negate (.ofNat 32 (order - 1)) = .ofNat 32 1 := by decide +kernel
  exact ⟨hvalid, hnegate, (bytewise_arithmetic.2 _ hvalid).2⟩

end Signature

end SecondFactor
