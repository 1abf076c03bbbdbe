import SecondFactor.Proofs.Curve.PublicKey
import SecondFactor.Proofs.Signature.Acceptance
import SecondFactor.Signature.SecretKey

/-!
# Signatures Verify and Give Back Their Key

Signing, checking and recovering as statements about the group of the curve. What is signed
satisfies the equation that is checked (`Made.satisfies`), and the key that solves the equation is
the signer's (`Made.candidateKey?_eq`). The main statement is `SecretKey.exists_sign?`: unless its
nonce is one of the few that are of no use (`SecretKey.Signs`), a key signs a hash so that the
signature gives the public key back, and so verifies with it (`Signature.verify_of_recover`).
-/

namespace SecondFactor

open Curve Signature

/-! ## The equation of a signature -/

namespace Signature

/-- The inverse of a scalar is that of its class. -/
theorem residue_inverse_scalar (x : Scalar) : residue (inverse x) = (residue x)⁻¹ :=
  residue_inverse (by norm_num [order]) order_lt x

/-- `Made d z r s x y k`: the numbers `r` and `s` are a signature over `z` with the secret scalar
`d`, made from the point with coordinates `x` and `y`, which is the `k`-fold generator. -/
structure Made (d z r s : Scalar) (x y : Coordinate) (k : ZMod order) : Prop where
  /-- The point is the multiple of the generator. -/
  represents : (Point.ofAffine x y).Represents (multiple k)
  /-- The first number is the first coordinate of the point. -/
  r_eq : r = Fin.ofNat order x.val
  /-- The first number is not zero. -/
  r_ne_zero : r ≠ 0
  /-- The second number is not zero. -/
  s_ne_zero : s ≠ 0
  /-- The second number solves the equation of the signature. -/
  equation : residue s * k = residue z + residue r * residue d

variable {d z r s : Scalar} {x y : Coordinate} {k : ZMod order} {signer : PublicKey}

/-- A signature satisfies the equation that is checked with the public key. -/
theorem Made.satisfies (h : Made d z r s x y k)
    (hsigner : signer.point.Represents (multiple (residue d))) :
    Signature.satisfies signer z r s = true := by
  have hs : residue s ≠ 0 := mt residue_eq_zero_iff.1 h.s_ne_zero
  -- The sum of the two multiples is the point that the signature was made from.
  have hsum := (represents_scale_generator (z * inverse s)).add_multiple
    (hsigner.scale_multiple (r * inverse s))
  have hscalar : residue (z * inverse s) + residue (r * inverse s) * residue d = k := by
    simp only [residue_mul, residue_inverse_scalar]
    field_simp
    linear_combination -h.equation
  rw [hscalar] at hsum
  unfold Signature.satisfies
  dsimp only
  rw [hsum.affine?_eq_some_iff.2 h.represents, h.r_eq]
  exact beq_self_eq_true _

/-- The public key is recovered from a signature if the first coordinate of the point is below the
order, so that it is the first number of the signature. -/
theorem Made.candidateKey?_eq (h : Made d z r s x y k)
    (hsigner : signer.point.Represents (multiple (residue d))) :
    candidateKey? z r s x (y.val % 2 == 1) = some signer := by
  have hr : residue r ≠ 0 := mt residue_eq_zero_iff.1 h.r_ne_zero
  obtain ⟨hcurve, -⟩ := PublicKey.exists_ofCoordinates? h.represents
  have hnonce : (PublicKey.mk x y hcurve).point.Represents (multiple k) := h.represents
  -- Recovery computes `(s * k - z) / r`, which the equation says is the secret scalar.
  have hsum := (represents_scale_generator (-(inverse r * z))).add_multiple
    (hnonce.scale_multiple (inverse r * s))
  have hscalar : residue (-(inverse r * z)) + residue (inverse r * s) * k = residue d := by
    simp only [residue_neg, residue_mul, residue_inverse_scalar]
    field_simp
    linear_combination h.equation
  rw [hscalar] at hsum
  unfold candidateKey?
  rw [PublicKey.ofParity?_self ⟨x, y, hcurve⟩]
  exact PublicKey.ofPoint?_eq_some hsum hsigner

end Signature

namespace SecretKey

variable {key : SecretKey} {nonce z r s : Scalar} {x y : Coordinate} {odd : Bool}

/-- The numbers that are signed with have been made from a point with the same first coordinate as
the multiple of the generator by the nonce; the parity is that of its second coordinate, and the
second number is at most half the order. -/
theorem exists_made (hpoint : (Point.generator.scale nonce).affine? = some (x, y))
    (h : key.signWith? nonce z = some (r, s, odd)) :
    ∃ y' k, Made key.scalar z r s x y' k ∧ odd = (y'.val % 2 == 1) ∧ s.val ≤ order / 2 := by
  have hrepresents := (represents_scale_generator nonce).affine?_eq_some_iff.1 hpoint
  have hnonce : residue nonce ≠ 0 := fun hzero =>
    hrepresents.ofAffine_ne_zero (by rw [hzero, map_zero])
  unfold signWith? at h
  rw [hpoint] at h
  dsimp only at h
  split at h
  · cases h
  · next hne =>
    obtain ⟨hr, hs⟩ := not_or.1 hne
    have hequation : residue (inverse nonce * (z + Fin.ofNat order x.val * key.scalar)) *
        residue nonce = residue z + residue (Fin.ofNat order x.val) * residue key.scalar := by
      simp only [residue_mul, residue_add, residue_inverse_scalar]
      field_simp
    generalize inverse nonce * (z + Fin.ofNat order x.val * key.scalar) = s' at h hs hequation
    split at h
    · next hhigh =>
      -- The high number is negated, which is signing with the negated point.
      cases h
      have hodd : order % 2 = 1 := by decide
      have hlt := s'.isLt
      have hparity := odd_neg (snd_ne_zero hrepresents)
      refine ⟨-y, -residue nonce, ⟨?_, rfl, hr, ?_, ?_⟩, hparity.symm, ?_⟩
      · rw [map_neg]
        exact hrepresents.ofAffine_neg
      · exact fun hzero => hs (residue_injective (by simpa using congrArg residue hzero))
      · rw [residue_neg, neg_mul_neg, hequation]
      · rw [Fin.val_neg', Nat.mod_eq_of_lt (show order - s'.val < order by omega)]
        omega
    · next hlow =>
      cases h
      exact ⟨y, residue nonce, ⟨hrepresents, rfl, hr, hs, hequation⟩, rfl, Nat.le_of_not_lt hlow⟩

end SecretKey

/-! ## Signatures as bytes -/

namespace Signature

/-- The scalar of the bytes of a scalar. -/
theorem scalarOf_ofNat (s : Scalar) : scalarOf (FixedBytes.ofNat 32 s.val) = s := by
  rw [scalarOf, toNat_ofNat_of_lt s.isLt]
  exact Fin.ext (Nat.mod_eq_of_lt s.isLt)

/-- A scalar that is not zero is a valid number of a signature. -/
theorem isValid_ofNat {s : Scalar} (hs : s ≠ 0) : isValid (FixedBytes.ofNat 32 s.val) = true := by
  rw [isValid_iff, toNat_ofNat_of_lt s.isLt]
  exact ⟨Nat.pos_of_ne_zero fun hzero => hs (Fin.ext hzero), s.isLt⟩

/-- The bytes of a scalar are low if it is below half the order. -/
theorem isLow_ofNat {s : Scalar} (hs : s.val < order / 2) :
    isLow (FixedBytes.ofNat 32 s.val) = true := by
  rwa [isLow_iff, toNat_ofNat_of_lt s.isLt]

variable {r s : Scalar} {hash : Hash} {signer : PublicKey}

/-- Numbers that are not zero and satisfy the equation attest to the key if the second one is
low. -/
theorem attests_ofNat (hr : r ≠ 0) (hs : s ≠ 0) (hlow : s.val < order / 2)
    (hsatisfies : satisfies signer (scalarOf hash) r s = true) :
    Attests signer hash (.ofNat 32 r.val) (.ofNat 32 s.val) where
  inRange := inRange_iff.2 ⟨⟨isValid_ofNat hr, isValid_ofNat hs⟩, isLow_ofNat hlow⟩
  satisfies := by rwa [scalarOf_ofNat, scalarOf_ofNat]

/-- Numbers that attest to a key lead to it if the first one is the first coordinate of a point
that gives the key. -/
theorem recovers_append {x : Coordinate} {v : UInt8} {odd : Bool} (hx : x.val = r.val)
    (hv : parityOf? v = some odd)
    (hcandidate : candidateKey? (scalarOf hash) r s x odd = some signer)
    (hattests : Attests signer hash (.ofNat 32 r.val) (.ofNat 32 s.val)) :
    Recovers hash ((FixedBytes.ofNat 32 r.val).bytes ++ (FixedBytes.ofNat 32 s.val).bytes ++ [v])
      (.ofNat 32 r.val) (.ofNat 32 s.val) v signer where
  signature_eq := rfl
  exists_candidate := by
    have hcoordinate : Coordinate.ofBytes? (FixedBytes.ofNat 32 r.val).bytes = some x := by
      rw [← Coordinate.ofBytes?_bytes x, Coordinate.bytes, hx]
      rfl
    refine ⟨odd, x, hv, hcoordinate, ?_⟩
    rw [scalarOf_ofNat, scalarOf_ofNat]
    exact hcandidate
  attests := hattests

end Signature

namespace SecretKey

/-- `key.Signs hash`: the hash is signed with the key, and with luck. A nonce is drawn, the first
coordinate of its point is below the order, so that the first number of the signature tells it, and
the second number is not half the order, which is taken for high although its negative is high as
well. Either fails for one nonce in about `2 ^ 127`. -/
structure Signs (key : SecretKey) (hash : Hash) : Prop where
  /-- The numbers of the signature. -/
  exists_numbers : ∃ nonce x y r s odd, Nonce.derive? key.scalar hash = some nonce ∧
    (Point.generator.scale nonce).affine? = some (x, y) ∧ x.val < order ∧
    key.signWith? nonce (scalarOf hash) = some (r, s, odd) ∧ s.val ≠ order / 2

/-- Whether a key signs a hash can be computed. -/
theorem signs_iff {key : SecretKey} {hash : Hash} :
    key.Signs hash ↔
      (Nonce.derive? key.scalar hash).any (fun nonce =>
        (Point.generator.scale nonce).affine?.any (fun (x, _) => decide (x.val < order)) &&
          (key.signWith? nonce (scalarOf hash)).any
            fun (_, s, _) => decide (s.val ≠ order / 2)) = true := by
  simp only [Option.any_eq_true, Bool.and_eq_true, decide_eq_true_eq, Prod.exists]
  constructor
  · rintro ⟨nonce, x, y, r, s, odd, hnonce, hpoint, hx, hnumbers, hs⟩
    exact ⟨nonce, hnonce, ⟨x, y, hpoint, hx⟩, r, s, odd, hnumbers, hs⟩
  · rintro ⟨nonce, hnonce, ⟨x, y, hpoint, hx⟩, r, s, odd, hnumbers, hs⟩
    exact ⟨nonce, x, y, r, s, odd, hnonce, hpoint, hx, hnumbers, hs⟩

instance (key : SecretKey) (hash : Hash) : Decidable (key.Signs hash) :=
  decidable_of_iff' _ signs_iff

/-- The point of a secret key is its multiple of the generator. -/
theorem exists_point (key : SecretKey) :
    ∃ signer, key.point = some signer ∧
      signer.point.Represents (multiple (residue key.scalar)) := by
  refine PublicKey.exists_ofPoint? (represents_scale_generator key.scalar) fun hzero => ?_
  exact key.scalar_ne_zero (residue_eq_zero_iff.1 (multiple_eq_zero_iff.1 hzero))

/-- A signature consists of the two numbers that were made with the nonce, the second one in its low
form, and of the parity of the point that this form belongs to. -/
theorem sign?_eq_some_iff {key : SecretKey} {hash : Hash} {signature : FixedBytes 65} :
    key.sign? hash = some signature ↔
      ∃ nonce r s odd low negated, Nonce.derive? key.scalar hash = some nonce ∧
        key.signWith? nonce (scalarOf hash) = some (r, s, odd) ∧
        normalize (FixedBytes.ofNat 32 s.val) = (low, negated) ∧
        signature.bytes = (FixedBytes.ofNat 32 r.val).bytes ++ low.bytes ++
          [if odd = negated then 0 else 1] := by
  -- Unfolding the function at `key` and `hash` would have the generator run on these variables.
  generalize hsign : @sign? = sign
  delta sign? at hsign
  rw [← hsign]
  beta_reduce
  constructor
  · intro h
    split at h
    · cases h
    · next nonce hnonce =>
      split at h
      · cases h
      · next r s odd hnumbers =>
        split at h
        next low negated hnormalize =>
        have hbytes := congrArg FixedBytes.bytes (Option.some.inj h)
        exact ⟨nonce, r, s, odd, low, negated, hnonce, hnumbers, hnormalize, hbytes.symm⟩
  · rintro ⟨nonce, r, s, odd, low, negated, hnonce, hnumbers, hnormalize, hbytes⟩
    rw [hnonce]
    dsimp only
    rw [hnumbers]
    dsimp only
    rw [hnormalize]
    exact congrArg some (FixedBytes.ext hbytes.symm)

/-- The bytes of a signature whose second number is low anyway. -/
theorem exists_bytes {key : SecretKey} {hash : Hash} {nonce r s : Scalar} {odd : Bool}
    (hnonce : Nonce.derive? key.scalar hash = some nonce)
    (hnumbers : key.signWith? nonce (scalarOf hash) = some (r, s, odd))
    (hlow : s.val < order / 2) :
    ∃ signature, key.sign? hash = some signature ∧ signature.bytes =
      (FixedBytes.ofNat 32 r.val).bytes ++ (FixedBytes.ofNat 32 s.val).bytes ++
        [if odd = false then 0 else 1] := by
  have hnormalize : normalize (FixedBytes.ofNat 32 s.val) = (FixedBytes.ofNat 32 s.val, false) :=
    if_pos (isLow_ofNat hlow)
  have hlength : ((FixedBytes.ofNat 32 r.val).bytes ++ (FixedBytes.ofNat 32 s.val).bytes ++
      [if odd = false then (0 : UInt8) else 1]).length = 65 := by
    rw [List.length_append, length_numbers, List.length_singleton]
  refine ⟨⟨_, hlength⟩, sign?_eq_some_iff.2 ?_, rfl⟩
  exact ⟨nonce, r, s, odd, _, _, hnonce, hnumbers, hnormalize, rfl⟩

/-- The signature of a hash gives back the public key. -/
theorem exists_sign? {key : SecretKey} {hash : Hash} (h : key.Signs hash) :
    ∃ signature, key.sign? hash = some signature ∧
      Signature.recover hash signature.bytes = .ok key.publicKey := by
  obtain ⟨nonce, x, y, r, s, odd, hnonce, hpoint, hx, hnumbers, hhalf⟩ := h.exists_numbers
  obtain ⟨y', k, hmade, hodd, hle⟩ := exists_made hpoint hnumbers
  obtain ⟨signer, hsigner, hrepresents⟩ := key.exists_point
  have hlow : s.val < order / 2 := Nat.lt_of_le_of_ne hle hhalf
  have hr : x.val = r.val := by
    rw [hmade.r_eq, Fin.val_ofNat, Nat.mod_eq_of_lt hx]
  have hparity : parityOf? (if odd = false then 0 else 1) = some odd := by
    cases odd <;> rfl
  have hpublic : key.publicKey = signer.encode := by
    rw [publicKey, hsigner]
  have hsatisfies := hmade.satisfies hrepresents
  have hcandidate := hmade.candidateKey?_eq hrepresents
  rw [← hodd] at hcandidate
  obtain ⟨signature, hsign, hbytes⟩ := exists_bytes hnonce hnumbers hlow
  have hattests := attests_ofNat hmade.r_ne_zero hmade.s_ne_zero hlow hsatisfies
  have hrecovers := recovers_append hr hparity hcandidate hattests
  rw [← hbytes] at hrecovers
  exact ⟨signature, hsign, recover_eq_ok_iff.2 ⟨_, _, _, signer, hrecovers, hpublic⟩⟩

end SecretKey

end SecondFactor
