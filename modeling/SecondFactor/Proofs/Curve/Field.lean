import Mathlib.FieldTheory.Finite.Basic
import SecondFactor.Curve.Field

/-!
# Laws of Residues

A number below a modulus stands for a residue class (`residue`), and the arithmetic on such numbers
is that of the classes. Going over the bits of a number from the highest, with a doubling at each
bit and an addition where it is set, reaches the multiple (`overBits_induction`), so `power` is the
power. Modulo a prime `inverse` is then the inverse by Fermat's theorem.
-/

namespace SecondFactor.Curve

/-! ## Going over the bits -/

/-- Doubling at every bit and adding at those that are set counts up to the number. -/
theorem overBits_induction {α : Type} {double add : α → α} {start : α} {P : Nat → α → Prop}
    (hstart : P 0 start) (hdouble : ∀ {k a}, P k a → P (2 * k) (double a))
    (hadd : ∀ {k a}, P k a → P (k + 1) (add a)) {e : Nat} (he : e < 2 ^ 256) :
    P e (overBits double add start e) := by
  -- When the bits from the `n`-th on are done the quotient by `2 ^ n` has been reached.
  have hlower : ∀ (n : Nat) (acc : α), P (e / 2 ^ n) acc →
      P e ((List.range n).foldr
        (fun i acc => let twice := double acc; if e.testBit i then add twice else twice) acc) := by
    intro n
    induction n with
    | zero => exact fun acc hacc => by simpa using hacc
    | succ n ih =>
      intro acc hacc
      rw [List.range_succ, List.foldr_append]
      refine ih _ ?_
      have htwice := hdouble hacc
      -- The quotient by the lower power is twice that by the higher one, and the bit more.
      have hsplit : e / 2 ^ n = 2 * (e / 2 ^ (n + 1)) + e / 2 ^ n % 2 := by
        rw [pow_succ, ← Nat.div_div_eq_div_mul, Nat.div_add_mod]
      simp only [List.foldr_cons, List.foldr_nil, Nat.testBit_eq_decide_div_mod_eq]
      rcases Nat.mod_two_eq_zero_or_one (e / 2 ^ n) with hbit | hbit
      · rw [hbit, hsplit, hbit]
        exact htwice
      · rw [hbit, hsplit, hbit]
        exact hadd htwice
  refine hlower 256 start ?_
  rwa [Nat.div_eq_of_lt he]

/-! ## Residue classes -/

variable {m : Nat}

/-- The class of a number below the modulus. -/
def residue (x : Fin m) : ZMod m := (x.val : ZMod m)

theorem residue_injective : Function.Injective (residue (m := m)) := by
  intro x y h
  have hmod := (ZMod.natCast_eq_natCast_iff' x.val y.val m).1 h
  rw [Nat.mod_eq_of_lt x.isLt, Nat.mod_eq_of_lt y.isLt] at hmod
  exact Fin.ext hmod

@[simp] theorem residue_add (x y : Fin m) : residue (x + y) = residue x + residue y := by
  rw [residue, Fin.val_add, ZMod.natCast_mod, Nat.cast_add, residue, residue]

@[simp] theorem residue_mul (x y : Fin m) : residue (x * y) = residue x * residue y := by
  rw [residue, Fin.val_mul, ZMod.natCast_mod, Nat.cast_mul, residue, residue]

@[simp] theorem residue_sub (x y : Fin m) : residue (x - y) = residue x - residue y := by
  rw [residue, Fin.sub_def, ZMod.natCast_mod, Nat.cast_add, Nat.cast_sub y.isLt.le,
    ZMod.natCast_self, residue, residue]
  ring

@[simp] theorem residue_neg [NeZero m] (x : Fin m) : residue (-x) = -residue x := by
  rw [residue, Fin.val_neg', ZMod.natCast_mod, Nat.cast_sub x.isLt.le, ZMod.natCast_self, residue]
  ring

@[simp] theorem residue_ofNat [NeZero m] (n : Nat) : residue (Fin.ofNat m n) = n := by
  rw [residue, Fin.val_ofNat, ZMod.natCast_mod]

@[simp] theorem residue_zero [NeZero m] : residue (0 : Fin m) = 0 :=
  (residue_ofNat 0).trans Nat.cast_zero

@[simp] theorem residue_eq_zero_iff [NeZero m] {x : Fin m} : residue x = 0 ↔ x = 0 := by
  rw [← residue_zero, residue_injective.eq_iff]

/-- A numeral below the modulus is the class of the number. -/
@[simp] theorem residue_numeral [NeZero m] (n : Nat) [n.AtLeastTwo] :
    residue (ofNat(n) : Fin m) = OfNat.ofNat n :=
  residue_ofNat n

/-! ## Powers and inverses -/

theorem residue_oneLike (x : Fin m) : residue (oneLike x) = 1 := by
  rw [residue, oneLike, ZMod.natCast_mod, Nat.cast_one]

/-- A power with an exponent of at most 256 bits is the power. -/
theorem residue_power (x : Fin m) {e : Nat} (he : e < 2 ^ 256) :
    residue (power x e) = residue x ^ e := by
  refine overBits_induction (P := fun k acc => residue acc = residue x ^ k) ?_ ?_ ?_ he
  · rw [residue_oneLike, pow_zero]
  · intro k acc hacc
    rw [residue_mul, hacc, ← pow_add, two_mul]
  · intro k acc hacc
    rw [residue_mul, hacc, pow_succ]

/-- Modulo a prime the inverse is the inverse, with zero as its own. -/
theorem residue_inverse [Fact m.Prime] (hm : 2 < m) (hbits : m < 2 ^ 256) (x : Fin m) :
    residue (inverse x) = (residue x)⁻¹ := by
  rw [inverse, residue_power x (by omega)]
  by_cases hx : residue x = 0
  · rw [hx, inv_zero, zero_pow (by omega)]
  · -- The next power but one is one by Fermat's theorem.
    have hfermat := ZMod.pow_card_sub_one_eq_one hx
    refine eq_inv_of_mul_eq_one_left ?_
    rwa [← pow_succ, show m - 2 + 1 = m - 1 by omega]

end SecondFactor.Curve
