import SecondFactor.Proofs.Curve.Group

/-!
# Laws of Public Keys

A public key is a point of the curve other than the one at infinity, and each such point has one key
(`exists_ofPoint?`, `ofPoint?_eq_some`). A key is found again from its first coordinate and the
parity of the second one (`ofParity?_self`), since a coordinate has no square roots but a number and
its negative, and these differ in parity.
-/

namespace SecondFactor.Curve

/-! ## Square roots -/

theorem neg_neg_coordinate (y : Coordinate) : - -y = y :=
  residue_injective (by simp)

/-- The square root of a square is the number or its negative. -/
theorem exists_sqrt? (y : Coordinate) :
    ∃ root, sqrt? (y * y) = some root ∧ (root = y ∨ root = -y) := by
  have hquarter : 2 * (2 * ((fieldSize + 1) / 4)) = fieldSize + 1 := by
    norm_num [fieldSize]
  have hbits : (fieldSize + 1) / 4 < 2 ^ 256 := by
    norm_num [fieldSize]
  have hresidue := residue_power (y * y) hbits
  unfold sqrt?
  generalize power (y * y) ((fieldSize + 1) / 4) = root at hresidue ⊢
  -- The fourth power of the root is a power by `fieldSize + 1`, that is, a square.
  have hsquare : residue root * residue root = residue y * residue y := by
    rw [hresidue, residue_mul, ← mul_pow, ← pow_two, ← pow_two, ← pow_mul, ← pow_mul, hquarter,
      pow_succ, ZMod.pow_card, pow_two]
  refine ⟨root, if_pos (residue_injective (by rw [residue_mul, residue_mul, hsquare])), ?_⟩
  rw [← residue_injective.eq_iff, ← residue_injective.eq_iff (a := root) (b := -y), residue_neg]
  exact mul_self_eq_mul_self_iff.1 hsquare

/-- Of a coordinate and its negative one is odd, as the field size is. -/
theorem odd_neg {y : Coordinate} (hy : y ≠ 0) :
    ((-y).val % 2 == 1) = !(y.val % 2 == 1) := by
  have hodd : fieldSize % 2 = 1 := by decide
  have hpos : 0 < y.val := Nat.pos_of_ne_zero fun hzero => hy (Fin.ext hzero)
  have hlt := y.isLt
  rw [Fin.val_neg', Nat.mod_eq_of_lt (show fieldSize - y.val < fieldSize by omega)]
  rcases Nat.mod_two_eq_zero_or_one y.val with h | h
  · rw [h, show (fieldSize - y.val) % 2 = 1 by omega]
    rfl
  · rw [h, show (fieldSize - y.val) % 2 = 0 by omega]
    rfl

namespace PublicKey

/-! ## Keys and points -/

/-- Coordinates of a point are those of a key. -/
theorem exists_ofCoordinates? {x y : Coordinate} {P : curve.Point}
    (h : (Point.ofAffine x y).Represents P) :
    ∃ on_curve, ofCoordinates? x y = some ⟨x, y, on_curve⟩ := by
  obtain ⟨hpoint, rfl⟩ := Point.Represents.ofAffine_iff.1 h
  have hcurve : y * y = x * x * x + 7 := by
    refine residue_injective ?_
    simp only [residue_mul, residue_add, residue_numeral]
    linear_combination nonsingular_iff.1 hpoint
  exact ⟨hcurve, dif_pos hcurve⟩

/-- A point that is not at infinity has a key. -/
theorem exists_ofPoint? {p : Point} {P : curve.Point} (h : p.Represents P) (hne : P ≠ 0) :
    ∃ key, ofPoint? p = some key ∧ key.point.Represents P := by
  rcases h.affine?_cases with ⟨hzero, -⟩ | ⟨x, y, haffine, hrepresents⟩
  · exact absurd hzero hne
  · obtain ⟨hcurve, hkey⟩ := exists_ofCoordinates? hrepresents
    exact ⟨⟨x, y, hcurve⟩, by rw [ofPoint?, haffine]; exact hkey, hrepresents⟩

/-- No key stands for the point at infinity. -/
theorem ne_zero_of_represents {P : curve.Point} {key : PublicKey} (h : key.point.Represents P) :
    P ≠ 0 :=
  Point.Represents.ofAffine_ne_zero (x := key.x) (y := key.y) h

theorem eq_of_represents {P : curve.Point} {key other : PublicKey} (hkey : key.point.Represents P)
    (hother : other.point.Represents P) : key = other := by
  unfold point at hkey hother
  obtain ⟨hx, hy⟩ := hkey.ofAffine_unique hother
  exact PublicKey.ext hx hy

/-- A point has one key. -/
theorem ofPoint?_eq_some {p : Point} {P : curve.Point} {key : PublicKey} (h : p.Represents P)
    (hkey : key.point.Represents P) : ofPoint? p = some key := by
  obtain ⟨other, hother, hrepresents⟩ := exists_ofPoint? h (ne_zero_of_represents hkey)
  rw [hother, eq_of_represents hrepresents hkey]

/-- A key is found from its first coordinate and the parity of the second one. -/
theorem ofParity?_self (key : PublicKey) :
    ofParity? key.x (key.y.val % 2 == 1) = some key := by
  obtain ⟨root, hroot, hcases⟩ := exists_sqrt? key.y
  rw [key.on_curve] at hroot
  have hchoice : (if (root.val % 2 == 1) = (key.y.val % 2 == 1) then root else -root) = key.y := by
    rcases hcases with rfl | rfl
    · exact if_pos rfl
    · by_cases hy : key.y = 0
      · have hneg : -key.y = key.y := residue_injective (by simp [hy])
        rw [hneg, if_pos rfl]
      · rw [odd_neg hy, if_neg (by simp), neg_neg_coordinate]
  unfold ofParity?
  rw [hroot]
  dsimp only
  rw [hchoice]
  exact dif_pos key.on_curve

end PublicKey

end SecondFactor.Curve
