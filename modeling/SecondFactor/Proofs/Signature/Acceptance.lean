import SecondFactor.Proofs.Signature.Scalar
import SecondFactor.Signature.Ecdsa

/-!
# Which Signatures Are Accepted

Checking and recovery test one thing after the other. This module says without the tests what they
accept. Both ask that the two numbers of a signature are in their ranges and satisfy the equation of
the signature with a key (`Attests`); checking is given the key, and recovery finds it (`Recovers`).
The main statements are:

- `verify_eq_true_iff`, `recover_eq_ok_iff`: the functions accept what these relations say;
- `verify_of_recover`: a recovered key verifies the signature that it was recovered from.
-/

namespace SecondFactor.Signature

open Curve

variable {hash : Hash} {r s : ScalarBytes} {v : UInt8} {key : PublicKey}
  {signature publicKey : Bytes}

/-! ## Signatures as bytes -/

theorem length_numbers (r s : ScalarBytes) : (r.bytes ++ s.bytes).length = 64 := by
  rw [List.length_append, r.length_eq, s.length_eq]

/-- The two numbers of a signature are read off its halves. -/
theorem split?_append (r s : ScalarBytes) : split? (r.bytes ++ s.bytes) = some (r, s) := by
  rw [split?, if_pos (length_numbers r s), List.take_left' r.length_eq, List.drop_left' r.length_eq,
    FixedBytes.ofBytes?_bytes, FixedBytes.ofBytes?_bytes]

/-- A signature has two numbers exactly if it consists of them. -/
theorem split?_eq_some_iff : split? signature = some (r, s) ↔ signature = r.bytes ++ s.bytes := by
  constructor
  · intro h
    unfold split? at h
    split at h
    · split at h
      · next hr hs =>
        cases h
        rw [← FixedBytes.ofBytes?_eq_some_iff.1 hr, ← FixedBytes.ofBytes?_eq_some_iff.1 hs,
          List.take_append_drop]
      · cases h
    · cases h
  · rintro rfl
    exact split?_append r s

/-- A signature determines its numbers. -/
theorem append_injective {r' s' : ScalarBytes} (h : r.bytes ++ s.bytes = r'.bytes ++ s'.bytes) :
    r = r' ∧ s = s' := by
  have hsplit := split?_append r s
  rw [h, split?_append] at hsplit
  obtain ⟨rfl, rfl⟩ := Prod.mk.inj (Option.some.inj hsplit)
  exact ⟨rfl, rfl⟩

/-- A signature of 65 bytes ends with its recovery byte. -/
theorem take_append_getD (h : signature.length = 65) :
    signature.take 64 ++ [signature.getD 64 0] = signature := by
  have hlast : 64 < signature.length := by omega
  rw [← List.getElem_eq_getD (h := hlast) 0, List.take_append_getElem hlast,
    List.take_of_length_le (Nat.le_of_eq h)]

/-! ## What both functions ask for -/

/-- The numbers of a signature are in the ranges that are asked of them. -/
structure InRange (r s : ScalarBytes) : Prop where
  /-- The first number is not zero. -/
  r_pos : 0 < r.toNat
  /-- The first number is below the group order. -/
  r_lt : r.toNat < order
  /-- The second number is not zero. -/
  s_pos : 0 < s.toNat
  /-- The second number is below half the group order. -/
  s_lt : s.toNat < (order - 1) / 2

/-- The ranges are those that are tested on the bytes. -/
theorem inRange_iff :
    InRange r s ↔ (isValid r = true ∧ isValid s = true) ∧ isLow s = true := by
  -- The order is odd, so half of it is that of its predecessor.
  have hodd : order / 2 = (order - 1) / 2 := by decide
  rw [isValid_iff, isValid_iff, isLow_iff, hodd]
  constructor
  · intro h
    have hlt := h.s_lt
    exact ⟨⟨⟨h.r_pos, h.r_lt⟩, h.s_pos, by omega⟩, hlt⟩
  · rintro ⟨⟨⟨hr, hr'⟩, hs, -⟩, hlow⟩
    exact ⟨hr, hr', hs, hlow⟩

/-- `Attests key hash r s`: the numbers `r` and `s` are a signature over the hash that counts as one
made with the key. -/
structure Attests (key : PublicKey) (hash : Hash) (r s : ScalarBytes) : Prop where
  /-- The numbers are in their ranges. -/
  inRange : InRange r s
  /-- They satisfy the equation with the key. -/
  satisfies : satisfies key (scalarOf hash) (scalarOf r) (scalarOf s) = true

/-! ## Checking -/

/-- A signature verifies exactly if it consists of two numbers that attest to the key. -/
theorem verify_eq_true_iff :
    verify publicKey hash signature = true ↔
      ∃ r s key, signature = r.bytes ++ s.bytes ∧ PublicKey.decode? publicKey = some key ∧
        Attests key hash r s := by
  unfold verify
  constructor
  · intro h
    split at h
    · cases h
    · next r s hsplit =>
      simp only [Bool.and_eq_true] at h
      obtain ⟨hrange, hkey⟩ := h
      split at hkey
      · next key hdecode =>
        exact ⟨r, s, key, split?_eq_some_iff.1 hsplit, hdecode, inRange_iff.2 hrange, hkey⟩
      · cases hkey
  · rintro ⟨r, s, key, rfl, hdecode, hattests⟩
    rw [split?_append, hdecode]
    simp only [Bool.and_eq_true]
    exact ⟨inRange_iff.1 hattests.inRange, hattests.satisfies⟩

/-! ## Recovery -/

/-- `Recovers hash signature r s v key`: the signature consists of the numbers `r` and `s` and the
recovery byte `v`, and it leads to the key. -/
structure Recovers (hash : Hash) (signature : Bytes) (r s : ScalarBytes) (v : UInt8)
    (key : PublicKey) : Prop where
  /-- The signature has these parts. -/
  signature_eq : signature = r.bytes ++ s.bytes ++ [v]
  /-- The recovery byte tells the parity of the point that `r` is the first coordinate of, and the
  key is the one for which this point satisfies the equation. -/
  exists_candidate : ∃ odd x, parityOf? v = some odd ∧ Coordinate.ofBytes? r.bytes = some x ∧
    candidateKey? (scalarOf hash) (scalarOf r) (scalarOf s) x odd = some key
  /-- The numbers attest to the key. -/
  attests : Attests key hash r s

/-- A signature from which a key is recovered leads to this key. -/
theorem exists_recovers (h : recover hash signature = .ok publicKey) :
    ∃ r s v key, Recovers hash signature r s v key ∧ publicKey = key.encode := by
  -- Each test either ends the search for a key or leaves its condition behind.
  unfold recover at h
  split at h
  · cases h
  rename_i hlength
  dsimp only at h
  split at h
  · cases h
  rename_i odd hparity
  split at h
  · cases h
  rename_i r s hsplit
  split at h
  · cases h
  rename_i hvalid
  split at h
  · cases h
  rename_i hlow
  split at h
  · cases h
  rename_i x hcoordinate
  split at h
  · cases h
  rename_i key hcandidate
  split at h
  · next hsatisfies =>
    have hrange : InRange r s := inRange_iff.2 ⟨by simpa using hvalid, by simpa using hlow⟩
    refine ⟨r, s, _, key, ⟨?_, ⟨odd, x, hparity, hcoordinate, hcandidate⟩, hrange, hsatisfies⟩,
      (Except.ok.inj h).symm⟩
    rw [← split?_eq_some_iff.1 hsplit, take_append_getD (Decidable.not_not.1 hlength)]
  · cases h

/-- The key that a signature leads to is recovered from it. -/
theorem Recovers.recover_eq (h : Recovers hash signature r s v key) :
    recover hash signature = .ok key.encode := by
  obtain ⟨rfl, ⟨odd, x, hparity, hcoordinate, hcandidate⟩, hattests⟩ := h
  obtain ⟨⟨hr, hs⟩, hlow⟩ := inRange_iff.1 hattests.inRange
  have hnumbers := length_numbers r s
  have hlength : (r.bytes ++ s.bytes ++ [v]).length = 65 := by
    rw [List.length_append, hnumbers]
    rfl
  have hbyte : (r.bytes ++ s.bytes ++ [v]).getD 64 0 = v := by
    rw [← hnumbers]
    simp
  unfold recover
  rw [if_neg (not_not.2 hlength), hbyte, List.take_left' hnumbers]
  simp only [hparity, split?_append, hr, hs, hlow, hcoordinate, hcandidate, hattests.satisfies]
  rfl

/-- A key is recovered exactly if the signature leads to it. -/
theorem recover_eq_ok_iff :
    recover hash signature = .ok publicKey ↔
      ∃ r s v key, Recovers hash signature r s v key ∧ publicKey = key.encode := by
  constructor
  · exact exists_recovers
  · rintro ⟨r, s, v, key, h, rfl⟩
    exact h.recover_eq

/-- A recovered key is in the uncompressed form. -/
theorem length_recover (h : recover hash signature = .ok publicKey) : publicKey.length = 65 := by
  obtain ⟨r, s, v, key, -, rfl⟩ := recover_eq_ok_iff.1 h
  exact PublicKey.length_encode key

/-- A key is recovered only from a signature with its recovery byte. -/
theorem length_eq_of_recover (h : recover hash signature = .ok publicKey) :
    signature.length = 65 := by
  obtain ⟨r, s, v, key, hrecovers, -⟩ := recover_eq_ok_iff.1 h
  rw [hrecovers.signature_eq, List.length_append, length_numbers, List.length_singleton]

/-- Of a signature from which a key is recovered the recovery byte is stripped. -/
theorem stripRecoveryByte_of_recover (h : recover hash signature = .ok publicKey) :
    stripRecoveryByte signature = signature.take 64 :=
  if_pos (length_eq_of_recover h)

/-- A recovered key verifies the signature that it was recovered from. -/
theorem verify_of_recover (h : recover hash signature = .ok publicKey) :
    verify publicKey hash (signature.take 64) = true := by
  obtain ⟨r, s, v, key, hrecovers, rfl⟩ := recover_eq_ok_iff.1 h
  refine verify_eq_true_iff.2 ⟨r, s, key, ?_, PublicKey.decode?_encode key, hrecovers.attests⟩
  rw [hrecovers.signature_eq, List.take_left' (length_numbers r s)]

/-- It verifies the signature as well that is stripped of its recovery byte where there is one. -/
theorem verify_stripRecoveryByte (h : recover hash signature = .ok publicKey) :
    verify publicKey hash (stripRecoveryByte signature) = true := by
  rw [stripRecoveryByte_of_recover h]
  exact verify_of_recover h

end SecondFactor.Signature
