import Mathlib.AlgebraicGeometry.EllipticCurve.Affine.Point
import SecondFactor.Curve.PublicKey
import SecondFactor.Proofs.Curve.Primes

/-!
# Points of the Curve as a Group

The points in weighted coordinates stand for those of the group of the elliptic curve
(`Point.Represents`), and the formulas that double, add and multiply them compute the operations of
the group (`Represents.double`, `Represents.add`, `Represents.scale`). Each point other than zero
has its affine coordinates and no others (`Represents.affine?_eq_some_iff`). The generator has the
prime `order` as its order, so its multiples are those by residues modulo it (`multiple`), and they
are different (`multiple_eq_zero_iff`).
-/

namespace SecondFactor.Curve

open WeierstrassCurve.Affine

/-! ## The curve -/

/-- The curve `y² = x³ + 7` over the residues of the field size. -/
def curve : WeierstrassCurve.Affine (ZMod fieldSize) where
  a₁ := 0
  a₂ := 0
  a₃ := 0
  a₄ := 0
  a₆ := 7

/-- A number that is not zero and smaller than the field is not zero in it. -/
theorem natCast_ne_zero {n : Nat} (hpos : 0 < n) (hlt : n < fieldSize) :
    (n : ZMod fieldSize) ≠ 0 := by
  rw [Ne, ZMod.natCast_eq_zero_iff]
  exact Nat.not_dvd_of_pos_of_lt hpos hlt

theorem cast_two_ne_zero : (2 : ZMod fieldSize) ≠ 0 :=
  natCast_ne_zero (n := 2) (by decide) (by decide)

theorem equation_iff {x y : ZMod fieldSize} : curve.Equation x y ↔ y ^ 2 = x ^ 3 + 7 := by
  rw [WeierstrassCurve.Affine.equation_iff]
  simp [curve]

theorem order_lt : order < 2 ^ 256 := by
  norm_num [order]

/-- No point of the curve is singular. -/
theorem nonsingular_iff {x y : ZMod fieldSize} :
    curve.Nonsingular x y ↔ y ^ 2 = x ^ 3 + 7 := by
  have hdiscriminant : curve.Δ ≠ 0 := by
    -- The discriminant is `-27 * b₆ ^ 2` with `b₆ = 28`.
    have h := natCast_ne_zero (n := 21168) (by decide) (by decide)
    simp only [curve, WeierstrassCurve.Δ, WeierstrassCurve.b₂, WeierstrassCurve.b₄,
      WeierstrassCurve.b₆, WeierstrassCurve.b₈]
    intro hzero
    refine h ?_
    push_cast
    linear_combination -hzero
  rw [← equation_iff, equation_iff_nonsingular_of_Δ_ne_zero hdiscriminant]

/-! ### The formulas of the group law -/

theorem negY_curve (x y : ZMod fieldSize) : curve.negY x y = -y := by
  simp [negY, curve]

theorem addX_curve (x₁ x₂ l : ZMod fieldSize) : curve.addX x₁ x₂ l = l ^ 2 - x₁ - x₂ := by
  simp [addX, curve]

theorem addY_curve (x₁ x₂ y₁ l : ZMod fieldSize) :
    curve.addY x₁ x₂ y₁ l = -(l * (curve.addX x₁ x₂ l - x₁) + y₁) := by
  rw [addY, negY_curve, negAddY]

/-- The slope of the tangent at a point whose second coordinate is not zero. -/
theorem slope_tangent {x y : ZMod fieldSize} (hy : y ≠ curve.negY x y) :
    curve.slope x x y y = 3 * x ^ 2 / (2 * y) := by
  rw [slope_of_Y_ne rfl hy, negY_curve]
  simp [curve, two_mul]

/-! ## Weighted coordinates -/

namespace Point

/-- `p.Represents P`: the weighted coordinates `p` stand for the point `P` of the curve. -/
inductive Represents (p : Point) : curve.Point → Prop
  /-- Without weight they stand for the point at infinity. -/
  | weightless (hz : p.z = 0) : p.Represents 0
  /-- Otherwise they are the affine coordinates, weighted. -/
  | weighted {x y} (hz : residue p.z ≠ 0) (h : curve.Nonsingular x y)
      (hx : residue p.x = x * residue p.z ^ 2) (hy : residue p.y = y * residue p.z ^ 3) :
      p.Represents (.some x y h)

namespace Represents

variable {p q : Point} {P Q : curve.Point}

/-- Coordinates without weight stand for the point at infinity only. -/
theorem eq_zero (h : p.Represents P) (hz : p.z = 0) : P = 0 := by
  cases h with
  | weightless => rfl
  | weighted hne => exact absurd (residue_eq_zero_iff.2 hz) hne

/-- Doubling doubles the point. -/
theorem double (h : p.Represents P) : p.double.Represents (P + P) := by
  cases h with
  | weightless hz =>
    rw [add_zero]
    exact .weightless (residue_eq_zero_iff.1 (by simp [Point.double, hz]))
  | @weighted x y hz h hx hy =>
    by_cases hy0 : y = 0
    · -- A point with second coordinate zero is its own negative.
      rw [Point.add_self_of_Y_eq (by rw [negY_curve, hy0, neg_zero])]
      exact .weightless (residue_eq_zero_iff.1 (by simp [Point.double, hy, hy0]))
    · have hyne : y ≠ curve.negY x y := by
        rw [negY_curve]
        intro heq
        refine hy0 ((mul_eq_zero.1 ?_).resolve_left cast_two_ne_zero)
        linear_combination heq
      have htwo := cast_two_ne_zero
      -- Otherwise the double lies on the tangent at the point.
      rw [Point.add_self_of_Y_ne hyne]
      refine .weighted ?_ _ ?_ ?_
      · simp [Point.double, hy, hy0, hz, htwo]
      · rw [addX_curve, slope_tangent hyne]
        simp [Point.double, hx, hy]
        field_simp
        ring
      · rw [addY_curve, addX_curve, slope_tangent hyne]
        simp [Point.double, hx, hy]
        field_simp
        ring

/-- Coordinates at a common weight are equal exactly if they are without it. -/
theorem sub_eq_zero_iff_of_weight {a b : Coordinate} {u v w : ZMod fieldSize} (hw : w ≠ 0)
    (h : residue (a - b) = (v - u) * w) : a - b = 0 ↔ u = v := by
  rw [← residue_eq_zero_iff, h, mul_eq_zero, or_iff_left hw, sub_eq_zero, eq_comm]

/-- Adding adds the points. -/
theorem add (hp : p.Represents P) (hq : q.Represents Q) : (p.add q).Represents (P + Q) := by
  unfold Point.add
  cases hp with
  | weightless hpz =>
    rw [if_pos hpz, zero_add]
    exact hq
  | @weighted x₁ y₁ hpz hpoint hpx hpy =>
    rw [if_neg (fun hzero => hpz (residue_eq_zero_iff.2 hzero))]
    cases hq with
    | weightless hqz =>
      rw [if_pos hqz, add_zero]
      exact .weighted hpz hpoint hpx hpy
    | @weighted x₂ y₂ hqz hqoint hqx hqy =>
      rw [if_neg (fun hzero => hqz (residue_eq_zero_iff.2 hzero))]
      have hweight : residue p.z * residue q.z ≠ 0 := mul_ne_zero hpz hqz
      -- The differences of the coordinates are formed at a common weight.
      have hh : residue (q.x * (p.z * p.z) - p.x * (q.z * q.z)) =
          (x₂ - x₁) * (residue p.z * residue q.z) ^ 2 := by
        simp [hpx, hqx]
        ring
      have hr : residue (q.y * (p.z * p.z) * p.z - p.y * (q.z * q.z) * q.z) =
          (y₂ - y₁) * (residue p.z * residue q.z) ^ 3 := by
        simp [hpy, hqy]
        ring
      have hx_iff := sub_eq_zero_iff_of_weight (pow_ne_zero 2 hweight) hh
      have hy_iff := sub_eq_zero_iff_of_weight (pow_ne_zero 3 hweight) hr
      by_cases hx : x₁ = x₂
      · rw [if_pos (hx_iff.2 hx)]
        subst hx
        by_cases hy : y₁ = y₂
        · -- Adding a point to itself is doubling it.
          rw [if_pos (hy_iff.2 hy)]
          subst hy
          exact double (.weighted hpz hpoint hpx hpy)
        · -- Different points with the same first coordinate are each other's negatives.
          have hneg := (Y_eq_of_X_eq hpoint.left hqoint.left rfl).resolve_left hy
          rw [if_neg (mt hy_iff.1 hy), Point.add_of_Y_eq rfl hneg]
          exact .weightless rfl
      · -- The sum of different points lies on the chord through them.
        have hdiff : x₂ - x₁ ≠ 0 := sub_ne_zero.2 (Ne.symm hx)
        have hdiff' : x₁ - x₂ ≠ 0 := sub_ne_zero.2 hx
        rw [if_neg (mt hx_iff.1 hx), Point.add_of_X_ne hx]
        refine .weighted ?_ _ ?_ ?_
        · rw [residue_mul, residue_mul, hh]
          exact mul_ne_zero (mul_ne_zero (mul_ne_zero hdiff (pow_ne_zero 2 hweight)) hpz) hqz
        · rw [addX_curve, slope_of_X_ne hx]
          simp only [residue_mul, residue_sub, residue_numeral, hpx, hpy, hqx, hqy]
          field_simp
          ring
        · rw [addY_curve, addX_curve, slope_of_X_ne hx]
          simp only [residue_mul, residue_sub, residue_numeral, hpx, hpy, hqx, hqy]
          field_simp
          ring

/-- Doubling and adding over the bits of a number takes the multiple. -/
theorem overBits (h : p.Represents P) {e : Nat} (he : e < 2 ^ 256) :
    (Curve.overBits Point.double (Point.add · p) infinity e).Represents (e • P) := by
  refine overBits_induction (P := fun k (acc : Point) => acc.Represents (k • P)) ?_ ?_ ?_ he
  · rw [zero_nsmul]
    exact .weightless rfl
  · intro k acc hacc
    rw [two_mul, add_nsmul]
    exact hacc.double
  · intro k acc hacc
    rw [succ_nsmul]
    exact hacc.add h

/-- A multiple is the multiple of the point. -/
theorem scale (h : p.Represents P) (k : Scalar) : (p.scale k).Represents (k.val • P) :=
  h.overBits (k.isLt.trans order_lt)

/-! ### Affine coordinates -/

/-- Coordinates with weight one stand for the point with these coordinates. -/
theorem ofAffine_iff {x y : Coordinate} :
    (ofAffine x y).Represents P ↔ ∃ h, P = .some (residue x) (residue y) h := by
  have hone : residue (1 : Coordinate) = 1 := (residue_ofNat 1).trans Nat.cast_one
  constructor
  · intro h
    cases h with
    | weightless hz => exact absurd hz (by decide : (1 : Coordinate) ≠ 0)
    | weighted _ h hx hy =>
      simp only [ofAffine, hone, one_pow, mul_one] at hx hy
      subst hx hy
      exact ⟨h, rfl⟩
  · rintro ⟨h, rfl⟩
    refine .weighted ?_ h ?_ ?_
    · simp [ofAffine, hone]
    · simp [ofAffine, hone]
    · simp [ofAffine, hone]

/-- The point at infinity has no affine coordinates. -/
theorem ofAffine_ne_zero {x y : Coordinate} (h : (ofAffine x y).Represents P) : P ≠ 0 := by
  obtain ⟨hpoint, rfl⟩ := ofAffine_iff.1 h
  exact Point.some_ne_zero hpoint

/-- A point has one pair of affine coordinates. -/
theorem ofAffine_unique {x y x' y' : Coordinate} (h : (ofAffine x y).Represents P)
    (h' : (ofAffine x' y').Represents P) : x = x' ∧ y = y' := by
  obtain ⟨_, rfl⟩ := ofAffine_iff.1 h
  obtain ⟨_, heq⟩ := ofAffine_iff.1 h'
  obtain ⟨hx, hy⟩ := Point.some.inj heq
  exact ⟨residue_injective hx, residue_injective hy⟩

theorem two_lt_fieldSize : 2 < fieldSize := by
  norm_num [fieldSize]

theorem fieldSize_lt : fieldSize < 2 ^ 256 := by
  norm_num [fieldSize]

/-- Either the point is at infinity, and there are no affine coordinates, or they are computed. -/
theorem affine?_cases (h : p.Represents P) :
    P = 0 ∧ p.affine? = none ∨
      ∃ x y, p.affine? = some (x, y) ∧ (ofAffine x y).Represents P := by
  unfold affine?
  cases h with
  | weightless hz => exact .inl ⟨rfl, if_pos hz⟩
  | @weighted x y hz h hx hy =>
    refine .inr ⟨_, _, if_neg fun hzero => hz (residue_eq_zero_iff.2 hzero), ?_⟩
    -- The computed coordinates are those of the point, which divides them by its weight.
    have hinverse := residue_inverse two_lt_fieldSize fieldSize_lt p.z
    have hx' : residue (p.x * (inverse p.z * inverse p.z)) = x := by
      rw [residue_mul, residue_mul, hinverse, hx]
      field_simp
    have hy' : residue (p.y * (inverse p.z * inverse p.z) * inverse p.z) = y := by
      rw [residue_mul, residue_mul, residue_mul, hinverse, hy]
      field_simp
    subst hx' hy'
    exact ofAffine_iff.2 ⟨h, rfl⟩

/-- Affine coordinates are those of the point exactly if they are computed. -/
theorem affine?_eq_some_iff {x y : Coordinate} (h : p.Represents P) :
    p.affine? = some (x, y) ↔ (ofAffine x y).Represents P := by
  rcases h.affine?_cases with ⟨rfl, hnone⟩ | ⟨x', y', haffine, hrepresents⟩
  · exact iff_of_false (by simp [hnone]) fun hxy => hxy.ofAffine_ne_zero rfl
  · rw [haffine]
    constructor
    · rintro ⟨⟩
      exact hrepresents
    · intro hxy
      obtain ⟨rfl, rfl⟩ := hrepresents.ofAffine_unique hxy
      rfl

/-- The negative of a point. -/
theorem ofAffine_neg {x y : Coordinate} (h : (ofAffine x y).Represents P) :
    (ofAffine x (-y)).Represents (-P) := by
  obtain ⟨hpoint, rfl⟩ := ofAffine_iff.1 h
  have hneg : curve.Nonsingular (residue x) (residue (-y)) := by
    rw [nonsingular_iff, residue_neg, neg_sq, nonsingular_iff.1 hpoint]
  refine ofAffine_iff.2 ⟨hneg, ?_⟩
  rw [Point.neg_some]
  congr 1
  rw [residue_neg, negY_curve]

end Represents

end Point

/-! ## Multiples of the generator -/

/-- The generator as a point of the curve. -/
def base : curve.Point :=
  .some (residue Point.generator.x) (residue Point.generator.y) <| nonsingular_iff.2 <| by
    have hcurve : Point.generator.y * Point.generator.y =
        Point.generator.x * Point.generator.x * Point.generator.x + 7 := by
      decide +kernel
    have hresidue := congrArg residue hcurve
    simp only [residue_mul, residue_add, residue_numeral] at hresidue
    linear_combination hresidue

theorem represents_generator : Point.generator.Represents base :=
  Point.Represents.ofAffine_iff.2 ⟨_, rfl⟩

/-- The order of the group annihilates the generator. -/
theorem order_nsmul_base : order • base = 0 := by
  have hz : (overBits Point.double (Point.add · Point.generator) Point.infinity order).z = 0 := by
    decide +kernel
  exact (represents_generator.overBits order_lt).eq_zero hz

/-- The multiple of the generator by a residue of the order. -/
noncomputable def multiple : ZMod order →+ curve.Point :=
  ZMod.lift order ⟨zmultiplesHom curve.Point base, by simp [order_nsmul_base]⟩

theorem multiple_natCast (k : Nat) : multiple (k : ZMod order) = k • base := by
  have hlift := ZMod.lift_coe order ⟨zmultiplesHom curve.Point base, by simp [order_nsmul_base]⟩ k
  rw [Int.cast_natCast] at hlift
  rw [multiple, hlift]
  simp

theorem multiple_residue (k : Scalar) : multiple (residue k) = k.val • base :=
  multiple_natCast k.val

/-- Different residues give different multiples, since the order is prime. -/
theorem multiple_eq_zero_iff {a : ZMod order} : multiple a = 0 ↔ a = 0 := by
  constructor
  · intro h
    by_contra ha
    -- The generator would be a multiple of the point at infinity.
    have hbase : base = (a⁻¹).val • multiple a := by
      rw [← map_nsmul, nsmul_eq_mul, ZMod.natCast_zmod_val, inv_mul_cancel₀ ha, ← Nat.cast_one,
        multiple_natCast, one_nsmul]
    rw [h, nsmul_zero] at hbase
    exact WeierstrassCurve.Affine.Point.some_ne_zero _ hbase
  · rintro rfl
    exact map_zero multiple

/-- No multiple of the generator is its own negative, since the order is odd. -/
theorem snd_ne_zero {x y : Coordinate} {a : ZMod order}
    (h : (Point.ofAffine x y).Represents (multiple a)) : y ≠ 0 := by
  rintro rfl
  have hzero : -(0 : Coordinate) = 0 := residue_injective (by simp)
  have hneg := h.ofAffine_neg
  rw [hzero, ← map_neg] at hneg
  obtain ⟨_, hpoint⟩ := Point.Represents.ofAffine_iff.1 h
  obtain ⟨_, hopposite⟩ := Point.Represents.ofAffine_iff.1 hneg
  -- With second coordinate zero the point would be its own negative, and twice it would be zero.
  have hself : multiple (-a) = multiple a := hopposite.trans hpoint.symm
  have hdouble : multiple (2 * a) = 0 := by
    calc multiple (2 * a) = multiple a + multiple a := by rw [two_mul, map_add]
      _ = multiple a + multiple (-a) := by rw [hself]
      _ = 0 := by rw [map_neg, add_neg_cancel]
  have htwo : (2 : ZMod order) ≠ 0 := by
    have hdvd : ¬order ∣ 2 := Nat.not_dvd_of_pos_of_lt (by decide) (by norm_num [order])
    exact fun heq => hdvd ((ZMod.natCast_eq_zero_iff 2 order).1 (by exact_mod_cast heq))
  have ha := (mul_eq_zero.1 (multiple_eq_zero_iff.1 hdouble)).resolve_left htwo
  exact h.ofAffine_ne_zero (by rw [ha, map_zero])

/-- A multiple of a multiple of the generator. -/
theorem Point.Represents.scale_multiple {p : Point} {a : ZMod order}
    (h : p.Represents (multiple a)) (k : Scalar) :
    (p.scale k).Represents (multiple (residue k * a)) := by
  have hscale := h.scale k
  rwa [← map_nsmul, nsmul_eq_mul] at hscale

/-- A multiple of the generator. -/
theorem represents_scale_generator (k : Scalar) :
    (Point.generator.scale k).Represents (multiple (residue k)) := by
  rw [multiple_residue]
  exact represents_generator.scale k

/-- The sum of two multiples of the generator. -/
theorem Point.Represents.add_multiple {p q : Point} {a b : ZMod order}
    (hp : p.Represents (multiple a)) (hq : q.Represents (multiple b)) :
    (p.add q).Represents (multiple (a + b)) := by
  rw [map_add]
  exact hp.add hq

end SecondFactor.Curve
