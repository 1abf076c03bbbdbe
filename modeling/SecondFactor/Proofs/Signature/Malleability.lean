import SecondFactor.Proofs.Proposal.Decision

/-!
# Signatures Cannot Be Altered by Negation

Where `r` and `s` satisfy the equation of a signature `r` and the group order less `s` satisfy it as
well, so from one signature anyone can compute another one. Checking and recovery both take only the
lower one of the two (`Accepted.inRange`, `InRange.not_negative`). The main statement is
`accepted_not_malleable`.
-/

namespace SecondFactor.Signature

open Curve Proposal

variable {r s : ScalarBytes}

/-- The numbers are accepted in some way: checking accepts them with some key and hash, or recovery
does so with some hash and recovery byte. -/
def Accepted (r s : ScalarBytes) : Prop :=
  (∃ publicKey hash, verify publicKey hash (r.bytes ++ s.bytes) = true) ∨
    ∃ hash v publicKey, recover hash (r.bytes ++ s.bytes ++ [v]) = .ok publicKey

/-- The other number with which `r` satisfies the equation of a signature. -/
def negative (s : ScalarBytes) : ScalarBytes :=
  .ofNat 32 (order - s.toNat)

theorem toNat_negative (hpos : 0 < s.toNat) (hlt : s.toNat < order) :
    (negative s).toNat = order - s.toNat := by
  apply toNat_ofNat_of_lt
  omega

/-- Numbers that are accepted are in their ranges. -/
theorem Accepted.inRange (h : Accepted r s) : InRange r s := by
  rcases h with ⟨publicKey, hash, hverify⟩ | ⟨hash, v, publicKey, hrecover⟩
  · obtain ⟨r', s', key, heq, -, hattests⟩ := verify_eq_true_iff.1 hverify
    obtain ⟨rfl, rfl⟩ := append_injective heq
    exact hattests.inRange
  · obtain ⟨r', s', v', key, hrecovers, -⟩ := recover_eq_ok_iff.1 hrecover
    -- The recovery byte is the last one, so the numbers before it are the same.
    obtain ⟨heq, -⟩ := List.append_inj' hrecovers.signature_eq rfl
    obtain ⟨rfl, rfl⟩ := append_injective heq
    exact hrecovers.attests.inRange

/-- A number and its negative add up to the order, so they are not both below half of it. -/
theorem InRange.not_negative (h : InRange r s) : ¬InRange r (negative s) := by
  intro hnegative
  have hlow := h.s_lt
  have hlow' := hnegative.s_lt
  rw [toNat_negative h.s_pos (by omega)] at hlow'
  omega

/-- A signature that checking or recovery accepts consists of two numbers that are in their ranges,
and of the two signatures with the same first number whose second ones are negatives of each other
at most one is accepted, whatever the keys, the hashes and the recovery bytes. -/
theorem accepted_not_malleable :
    (∀ publicKey hash signature, verify publicKey hash signature = true →
      ∃ r s : ScalarBytes, signature = r.bytes ++ s.bytes ∧ InRange r s) ∧
    (∀ hash signature publicKey, recover hash signature = .ok publicKey →
      ∃ (r s : ScalarBytes) (v : UInt8), signature = r.bytes ++ s.bytes ++ [v] ∧ InRange r s) ∧
    ∀ r s : ScalarBytes, 0 < s.toNat → s.toNat < order →
      (negative s).toNat = order - s.toNat ∧ ¬(Accepted r s ∧ Accepted r (negative s)) := by
  refine ⟨?_, ?_, ?_⟩
  · intro publicKey hash signature hverify
    obtain ⟨r, s, key, heq, -, hattests⟩ := verify_eq_true_iff.1 hverify
    exact ⟨r, s, heq, hattests.inRange⟩
  · intro hash signature publicKey hrecover
    obtain ⟨r, s, v, key, hrecovers, -⟩ := recover_eq_ok_iff.1 hrecover
    exact ⟨r, s, v, hrecovers.signature_eq, hrecovers.attests.inRange⟩
  · intro r s hpos hlt
    refine ⟨toNat_negative hpos hlt, ?_⟩
    rintro ⟨haccepted, hnegative⟩
    exact haccepted.inRange.not_negative hnegative.inRange

/-- The signature of the first votes is accepted, and with the negative of its second number it is
not. -/
theorem voted_not_malleable :
    let r : ScalarBytes := .ofNat 32
      0x79BE667EF9DCBBAC55A06295CE870B07029BFCDB2DCE28D959F2815B16F81798
    let s : ScalarBytes := .ofNat 32 1
    0 < s.toNat ∧ s.toNat < order ∧ Accepted r s ∧ ¬Accepted r (negative s) := by
  intro r s
  have hpos : 0 < s.toNat := by decide
  have hlt : s.toNat < order := by decide
  have haccepted : Accepted r s := .inr ⟨votedHash, 0, votedKey, recover_votedSignature⟩
  obtain ⟨-, hnot⟩ := accepted_not_malleable.2.2 r s hpos hlt
  exact ⟨hpos, hlt, haccepted, fun hnegative => hnot ⟨haccepted, hnegative⟩⟩

end SecondFactor.Signature
