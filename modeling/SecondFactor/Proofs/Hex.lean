import SecondFactor.Bytes.Hex

/-!
# Hexadecimal Text in Either Case

The texts that denote a byte string are its digits with any of the letters in upper case. Reading
accepts just these (`Hex.decode?_eq_some_iff`), so it accepts the texts with an even number of
characters all of which are digits (`Hex.exists_denotes_iff`).
-/

namespace SecondFactor.Hex

/-- A hexadecimal digit of either case. -/
def IsDigit (d : UInt8) : Prop :=
  (48 ≤ d.toNat ∧ d.toNat ≤ 57) ∨ (97 ≤ d.toNat ∧ d.toNat ≤ 102) ∨ (65 ≤ d.toNat ∧ d.toNat ≤ 70)

/-- A character with the digits `A` to `F` put in lower case. -/
def lower (d : UInt8) : UInt8 :=
  if 65 ≤ d.toNat ∧ d.toNat ≤ 70 then UInt8.ofNat (d.toNat + 32) else d

/-- Digits of either case that denote a byte string. -/
def Denotes (digits b : Bytes) : Prop :=
  digits.map lower = encode b

instance (digits b : Bytes) : Decidable (Denotes digits b) :=
  inferInstanceAs (Decidable (_ = _))

/-! ## Single digits -/

theorem toNat_lower (d : UInt8) :
    (lower d).toNat = if 65 ≤ d.toNat ∧ d.toNat ≤ 70 then d.toNat + 32 else d.toNat := by
  unfold lower
  split
  · rw [UInt8.toNat_ofNat']
    omega
  · rfl

theorem toNat_digit {n : Nat} (h : n < 16) :
    (digit n).toNat = if n < 10 then 48 + n else 87 + n := by
  rw [digit, UInt8.toNat_ofNat']
  split <;> omega

/-- A digit of a value is the one that is written, or it is in lower case. -/
theorem digitValue?_eq_some_iff {d : UInt8} {n : Nat} :
    digitValue? d = some n ↔ n < 16 ∧ lower d = digit n := by
  have hvalue : digitValue? d = some n ↔
      (48 ≤ d.toNat ∧ d.toNat ≤ 57) ∧ n = d.toNat - 48 ∨
      (97 ≤ d.toNat ∧ d.toNat ≤ 102) ∧ n = d.toNat - 87 ∨
      (65 ≤ d.toNat ∧ d.toNat ≤ 70) ∧ n = d.toNat - 55 := by
    unfold digitValue?
    grind
  rw [hvalue, ← UInt8.toNat_inj, toNat_lower]
  constructor
  · intro h
    have hn : n < 16 := by omega
    rw [toNat_digit hn]
    split <;> split <;> omega
  · rintro ⟨hn, h⟩
    rw [toNat_digit hn] at h
    split at h <;> split at h <;> omega

/-- The digits are the characters that have a value. -/
theorem isDigit_iff {d : UInt8} : IsDigit d ↔ ∃ n, digitValue? d = some n := by
  rw [← Option.isSome_iff_exists]
  unfold IsDigit digitValue?
  grind

/-! ## Texts -/

/-- A text is read as the byte string that its digits denote. -/
theorem decode?_eq_some_iff {digits b : Bytes} : decode? digits = some b ↔ Denotes digits b := by
  unfold Denotes
  constructor
  · intro h
    fun_induction decode? digits generalizing b with
    | case1 => cases h; rfl
    | case2 => cases h
    | case3 hi lo rest high low tail htail hlow hhigh ih =>
      cases h
      obtain ⟨hhigh, hhi⟩ := digitValue?_eq_some_iff.1 hhigh
      obtain ⟨hlow, hlo⟩ := digitValue?_eq_some_iff.1 hlow
      have hbyte : (UInt8.ofNat (high * 16 + low)).toNat = high * 16 + low := by
        rw [UInt8.toNat_ofNat']
        omega
      have hdiv : (high * 16 + low) / 16 = high := by omega
      have hmod : (high * 16 + low) % 16 = low := by omega
      rw [encode, hbyte, hdiv, hmod, ← hhi, ← hlo, ← ih htail]
      rfl
    | case4 => cases h
  · intro h
    induction b generalizing digits with
    | nil =>
      rw [List.map_eq_nil_iff.1 h]
      rfl
    | cons c b ih =>
      obtain ⟨hi, rest, rfl, hhi, hrest⟩ := List.map_eq_cons_iff.1 h
      obtain ⟨lo, rest, rfl, hlo, hrest⟩ := List.map_eq_cons_iff.1 hrest
      have hc : c.toNat < 256 := c.toNat_lt
      have hhigh := digitValue?_eq_some_iff.2 ⟨by omega, hhi⟩
      have hlow := digitValue?_eq_some_iff.2 ⟨by omega, hlo⟩
      have hsum : c.toNat / 16 * 16 + c.toNat % 16 = c.toNat := by omega
      rw [decode?, hhigh, hlow, ih hrest]
      simp only [hsum, UInt8.ofNat_toNat]

/-- What holds of each digit holds of all characters of a written byte string. -/
theorem forall_mem_encode {p : UInt8 → Prop} (h : ∀ n < 16, p (digit n)) (b : Bytes) :
    ∀ d ∈ encode b, p d := by
  induction b with
  | nil => exact nofun
  | cons c b ih =>
    have hc : c.toNat < 256 := c.toNat_lt
    exact List.forall_mem_cons.2 ⟨h _ (by omega), List.forall_mem_cons.2 ⟨h _ (by omega), ih⟩⟩

/-- There are two digits for each byte. -/
theorem Denotes.length_eq {digits b : Bytes} (h : Denotes digits b) :
    digits.length = 2 * b.length := by
  rw [← length_encode, ← h, List.length_map]

/-- A text denotes some bytes exactly if it is an even number of digits. -/
theorem exists_denotes_iff {digits : Bytes} :
    (∃ b, Denotes digits b) ↔ digits.length % 2 = 0 ∧ ∀ d ∈ digits, IsDigit d := by
  simp only [← decode?_eq_some_iff]
  fun_induction decode? digits with
  | case1 => simp
  | case2 => simp
  | case3 hi lo rest high low tail htail hlow hhigh ih =>
    obtain ⟨hlength, hdigits⟩ := ih.1 ⟨tail, htail⟩
    have hhi := isDigit_iff.2 ⟨high, hhigh⟩
    have hlo := isDigit_iff.2 ⟨low, hlow⟩
    refine iff_of_true ⟨_, rfl⟩ ⟨?_, ?_⟩
    · rw [List.length_cons, List.length_cons]
      omega
    · exact List.forall_mem_cons.2 ⟨hhi, List.forall_mem_cons.2 ⟨hlo, hdigits⟩⟩
  | case4 hi lo rest hnone ih =>
    refine iff_of_false (by simp) ?_
    rintro ⟨hlength, hdigits⟩
    obtain ⟨hhi, hdigits⟩ := List.forall_mem_cons.1 hdigits
    obtain ⟨hlo, hdigits⟩ := List.forall_mem_cons.1 hdigits
    obtain ⟨high, hhigh⟩ := isDigit_iff.1 hhi
    obtain ⟨low, hlow⟩ := isDigit_iff.1 hlo
    rw [List.length_cons, List.length_cons] at hlength
    obtain ⟨tail, htail⟩ := ih.2 ⟨by omega, hdigits⟩
    exact hnone high low tail hhigh hlow htail

end SecondFactor.Hex
