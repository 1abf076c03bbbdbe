import SecondFactor.Proofs.Proposal.FirstUse

/-!
# Signing with the Lower Number

Of the two numbers that a signature can be made with, which are negatives of each other, the signer
takes the low one (`normalize`). Low is what lies strictly below half the order, rounded down. Since
the order is odd, the half itself and its negative, the two numbers in the middle of the range
(`IsMiddle`), are both not low, and the signer's choice between them does not help. The main
statements are:

- `signed_accepted_iff`: of every other valid number the low form is taken, and a signature is
  judged by its equation alone;
- `middle_refused`: a signature with either number in the middle is refused, although both satisfy
  the equation.
-/

namespace SecondFactor

namespace Signature

open Curve

variable {hash : Hash} {r s : ScalarBytes} {v : UInt8} {odd : Bool}

/-! ## The low one of two numbers -/

/-- The numbers in the middle of the range: half the order, rounded down and rounded up. They are
negatives of each other. -/
def IsMiddle (s : ScalarBytes) : Prop :=
  s.toNat = (order - 1) / 2 ∨ s.toNat = (order + 1) / 2

instance (s : ScalarBytes) : Decidable (IsMiddle s) :=
  inferInstanceAs (Decidable (_ ∨ _))

/-- The order is odd, so its halves on either side of the middle differ by one. -/
theorem order_halves : (order - 1) / 2 = order / 2 ∧ (order + 1) / 2 = order / 2 + 1 ∧
    order = 2 * (order / 2) + 1 := by
  decide

/-- The negative of a valid number is low if the number lies above the middle. -/
theorem isLow_negate_iff (h : isValid s = true) :
    isLow (negate s) = true ↔ (order + 1) / 2 < s.toNat := by
  obtain ⟨-, hlt⟩ := isValid_iff.1 h
  obtain ⟨-, hup, hodd⟩ := order_halves
  rw [isLow_iff, toNat_negate_of_le (Nat.le_of_lt hlt)]
  omega

/-- Exactly one of a valid number and its negative is low, unless they are in the middle. -/
theorem isLow_ne_isLow_negate_iff (h : isValid s = true) :
    isLow s ≠ isLow (negate s) ↔ ¬IsMiddle s := by
  obtain ⟨hdown, hup, -⟩ := order_halves
  rw [Ne, Bool.eq_iff_iff, isLow_negate_iff h, isLow_iff, IsMiddle]
  omega

/-- What is taken for a valid number is valid. -/
theorem isValid_normalize (h : isValid s = true) : isValid (normalize s).1 = true := by
  unfold normalize
  split
  · exact h
  · exact isValid_negate h

/-- What is taken for a valid number is low, unless the number is in the middle. -/
theorem isLow_normalize_iff (h : isValid s = true) :
    isLow (normalize s).1 = true ↔ ¬IsMiddle s := by
  rw [← isLow_ne_isLow_negate_iff h]
  unfold normalize
  split
  · next hlow =>
    -- A low number has a negative that is above the middle.
    have hnegative : isLow (negate s) ≠ true := by
      rw [Ne, isLow_negate_iff h]
      rw [isLow_iff] at hlow
      obtain ⟨-, hup, -⟩ := order_halves
      omega
    simp [hlow, hnegative]
  · next hhigh => simp [hhigh]

/-! ## What a low number decides -/

/-- A signature of valid numbers verifies exactly if the second one is low and the equation is
satisfied with the key. -/
theorem verify_append_iff (hr : isValid r = true) (hs : isValid s = true) (publicKey : Bytes) :
    verify publicKey hash (r.bytes ++ s.bytes) = true ↔
      isLow s = true ∧ ∃ key, PublicKey.decode? publicKey = some key ∧
        satisfies key (scalarOf hash) (scalarOf r) (scalarOf s) = true := by
  rw [verify_eq_true_iff]
  constructor
  · rintro ⟨r', s', key, heq, hdecode, hattests⟩
    obtain ⟨rfl, rfl⟩ := append_injective heq
    exact ⟨(inRange_iff.1 hattests.inRange).2, key, hdecode, hattests.satisfies⟩
  · rintro ⟨hlow, key, hdecode, hsatisfies⟩
    exact ⟨r, s, key, rfl, hdecode, inRange_iff.2 ⟨⟨hr, hs⟩, hlow⟩, hsatisfies⟩

/-- Recovery from valid numbers fails over the second one exactly if it is not low, and over the
ranges of the numbers it does not fail. -/
theorem recover_append_range (hash : Hash) (hr : isValid r = true) (hs : isValid s = true)
    (hv : parityOf? v = some odd) :
    (recover hash (r.bytes ++ s.bytes ++ [v]) = .error .highS ↔ isLow s ≠ true) ∧
      recover hash (r.bytes ++ s.bytes ++ [v]) ≠ .error .scalarRange := by
  have hnumbers := length_numbers r s
  have hlength : (r.bytes ++ s.bytes ++ [v]).length = 65 := by
    rw [List.length_append, hnumbers]
    rfl
  have hbyte : (r.bytes ++ s.bytes ++ [v]).getD 64 0 = v := by
    rw [← hnumbers]
    simp
  unfold recover
  rw [if_neg (not_not.2 hlength), hbyte, List.take_left' hnumbers]
  simp only [hv, split?_append, hr, hs, Bool.and_self, Bool.not_true, Bool.false_eq_true,
    ↓reduceIte]
  cases hlow : isLow s with
  | false => simp
  | true =>
    -- From here on recovery fails only for want of a key.
    rw [Bool.not_true, if_neg Bool.false_ne_true]
    split
    · simp
    · split
      · simp
      · split <;> simp

/-! ## What the signer emits -/

/-- A signature consists of a valid number, the low form of another one and a recovery byte. -/
theorem exists_numbers_of_sign? {key : SecretKey} {signature : FixedBytes 65}
    (h : key.sign? hash = some signature) :
    ∃ (r s : ScalarBytes) (v : UInt8) (odd : Bool), isValid r = true ∧ isValid s = true ∧
      parityOf? v = some odd ∧ signature.bytes = r.bytes ++ (normalize s).1.bytes ++ [v] := by
  obtain ⟨nonce, r, s, odd, low, negated, -, hnumbers, hnormalize, hbytes⟩ :=
    SecretKey.sign?_eq_some_iff.1 h
  obtain ⟨⟨x, y⟩, hpoint⟩ : ∃ point, (Point.generator.scale nonce).affine? = some point := by
    refine Option.ne_none_iff_exists'.1 fun hnone => ?_
    rw [SecretKey.signWith?, hnone] at hnumbers
    cases hnumbers
  obtain ⟨y', k, hmade, -, -⟩ := SecretKey.exists_made hpoint hnumbers
  refine ⟨_, .ofNat 32 s.val, if odd = negated then 0 else 1, odd != negated,
    isValid_ofNat hmade.r_ne_zero, isValid_ofNat hmade.s_ne_zero, ?_, ?_⟩
  · cases odd <;> cases negated <;> rfl
  · rw [hnormalize, hbytes]

/-- Of a valid number the low form is taken, which is valid too, and low unless the number is in the
middle; with the same exception exactly one of the number and its negative is low. What the signer
emits is therefore made from valid numbers, and it is refused on account of the second one exactly
if that is in the middle: then recovery finds it too high and no key verifies it, and otherwise the
equation of the signature decides. -/
theorem signed_accepted_iff {s : ScalarBytes} (hs : isValid s = true) {key : SecretKey}
    {hash : Hash} {signature : FixedBytes 65} (hsign : key.sign? hash = some signature) :
    (isValid (normalize s).1 = true ∧
      (isLow (normalize s).1 = true ↔ ¬IsMiddle s) ∧
      (isLow s ≠ isLow (negate s) ↔ ¬IsMiddle s)) ∧
    ∃ (r s : ScalarBytes) (v : UInt8), isValid r = true ∧ isValid s = true ∧
      signature.bytes = r.bytes ++ (normalize s).1.bytes ++ [v] ∧
      (recover hash signature.bytes = .error .highS ↔ IsMiddle s) ∧
      recover hash signature.bytes ≠ .error .scalarRange ∧
      ∀ publicKey, verify publicKey hash (r.bytes ++ (normalize s).1.bytes) = true ↔
        ¬IsMiddle s ∧ ∃ key, PublicKey.decode? publicKey = some key ∧
          satisfies key (scalarOf hash) (scalarOf r) (scalarOf (normalize s).1) = true := by
  constructor
  · exact ⟨isValid_normalize hs, isLow_normalize_iff hs, isLow_ne_isLow_negate_iff hs⟩
  · obtain ⟨r, s, v, odd, hr, hs, hv, hbytes⟩ := exists_numbers_of_sign? hsign
    have hlow := isLow_normalize_iff hs
    obtain ⟨hhigh, hrange⟩ := recover_append_range hash hr (isValid_normalize hs) hv
    refine ⟨r, s, v, hr, hs, hbytes, ?_, hbytes ▸ hrange, fun publicKey => ?_⟩
    · rw [hbytes, hhigh, Ne, hlow, not_not]
    · rw [verify_append_iff hr (isValid_normalize hs), hlow]

open Proposal Voting

/-- The number one is taken as it is, and what the key of the generator signs is accepted. -/
theorem signed_votedHash :
    isValid (.ofNat 32 1) = true ∧ isLow (normalize (.ofNat 32 1)).1 = true ∧
      ∃ signature, unitKey.sign? votedHash = some signature ∧
        recover votedHash signature.bytes ≠ .error .scalarRange := by
  have hvalid : isValid (.ofNat 32 1) = true := by decide
  have hmiddle : ¬IsMiddle (.ofNat 32 1) := by decide +kernel
  obtain ⟨signature, hsign, -⟩ := SecretKey.exists_sign? signs_unitKey
  obtain ⟨hnumber, r, s, v, -, -, -, -, hrange, -⟩ := signed_accepted_iff hvalid hsign
  exact ⟨hvalid, hnumber.2.1.2 hmiddle, signature, hsign, hrange⟩

/-! ### The numbers in the middle -/

/-- Half the order, rounded down. -/
def middleNumber : ScalarBytes :=
  .ofNat 32 ((order - 1) / 2)

/-- The first coordinate of the generator, as the first number of a signature. -/
def generatorNumber : ScalarBytes :=
  .ofNat 32 0x79BE667EF9DCBBAC55A06295CE870B07029BFCDB2DCE28D959F2815B16F81798

/-- The hash that these two numbers sign with the key of the generator. -/
def middleHash : Hash :=
  .ofNat 32 0x0641998106234453AA5F9D6A3178F4F85ABB719829D6274485F6ADEB51230908

/-- Both signatures with a number in the middle satisfy the equation, and neither of them is
accepted. -/
theorem middle_refused :
    (isValid middleNumber = true ∧ isLow middleNumber = false ∧
      isLow (negate middleNumber) = false ∧ isLow (normalize middleNumber).1 = false) ∧
    ∀ s ∈ [middleNumber, negate middleNumber],
      (∃ key, PublicKey.decode? votedKey = some key ∧
        satisfies key (scalarOf middleHash) (scalarOf generatorNumber) (scalarOf s) = true) ∧
      verify votedKey middleHash (generatorNumber.bytes ++ s.bytes) = false ∧
      ∀ v ∈ [(0 : UInt8), 1],
        recover middleHash (generatorNumber.bytes ++ s.bytes ++ [v]) = .error .highS ∧
        (Voting.verify {} (.reliable .empty) ⟨1, middleHash, firstVoter,
          VoteExtension.encode ⟨generatorNumber.bytes ++ s.bytes ++ [v]⟩⟩).value = .reject := by
  have hvalid : isValid middleNumber = true := by decide +kernel
  have hr : isValid generatorNumber = true := by decide +kernel
  have hhigh : ∀ s ∈ [middleNumber, negate middleNumber], isLow s ≠ true := by decide +kernel
  have hnormalize : isLow (normalize middleNumber).1 = false := by decide +kernel
  have hsatisfies : ∀ s ∈ [middleNumber, negate middleNumber],
      ((PublicKey.decode? votedKey).any fun key =>
        satisfies key (scalarOf middleHash) (scalarOf generatorNumber) (scalarOf s)) = true := by
    decide +kernel
  have hs : ∀ s ∈ [middleNumber, negate middleNumber], isValid s = true := by
    intro s hmem
    rcases List.mem_pair.1 hmem with rfl | rfl
    · exact hvalid
    · exact isValid_negate hvalid
  refine ⟨⟨hvalid, ?_, ?_, hnormalize⟩, fun s hmem => ⟨?_, ?_, fun v hv => ?_⟩⟩
  · exact Bool.eq_false_iff.2 (hhigh _ List.mem_cons_self)
  · exact Bool.eq_false_iff.2 (hhigh _ (List.mem_cons_of_mem _ List.mem_cons_self))
  · exact (Option.any_eq_true _ _).1 (hsatisfies s hmem)
  · refine Bool.eq_false_iff.2 fun hverify => ?_
    exact hhigh s hmem ((verify_append_iff hr (hs s hmem) votedKey).1 hverify).1
  · have hparity : ∃ odd, parityOf? v = some odd := by
      rcases List.mem_pair.1 hv with rfl | rfl
      · exact ⟨false, rfl⟩
      · exact ⟨true, rfl⟩
    obtain ⟨odd, hparity⟩ := hparity
    obtain ⟨hrecover, -⟩ := recover_append_range middleHash hr (hs s hmem) hparity
    have hfault := hrecover.2 (hhigh s hmem)
    exact ⟨hfault, value_verify_of_recover_error (by simp) (Bindings.get_reliable _ _) hfault⟩

end Signature

end SecondFactor
