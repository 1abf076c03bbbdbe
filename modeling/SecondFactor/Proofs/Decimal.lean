import Mathlib.Data.List.Induction
import Mathlib.Data.List.TakeWhile
import SecondFactor.Text.Blank
import SecondFactor.Text.Decimal

/-!
# Decimal Numbers with Blanks around Them

Which texts denote a number (`Text.Denotes`): its decimal digits with any zeros and at most one plus
sign in front, and blanks around it all. Reading a number from a trimmed text accepts just these
(`readDecimal?_trimChars_eq_some_iff`), as far as the number is below the bound.
-/

namespace SecondFactor.Text

variable {cs before after digits : List Char} {c : Char} {bound n : Nat}

/-- Nothing but blanks. -/
def Blanks (cs : List Char) : Prop :=
  ∀ c ∈ cs, isBlank c = true

/-- The digits of a number, with zeros and a plus sign in front. -/
inductive IsDecimal (n : Nat) : List Char → Prop
  /-- The sign may be missing, and so may the zeros. -/
  | intro {sign : List Char} (zeros : Nat) (hsign : sign = [] ∨ sign = ['+']) :
      IsDecimal n (sign ++ (List.replicate zeros '0' ++ Nat.toDigits 10 n))

/-- The texts that denote a number. -/
inductive Denotes (n : Nat) : List Char → Prop
  /-- Blanks may stand around the number. -/
  | intro {before numeral after : List Char} (hbefore : Blanks before) (h : IsDecimal n numeral)
      (hafter : Blanks after) : Denotes n (before ++ numeral ++ after)

/-! ## Digits -/

/-- A digit is the one that is written for its value. -/
theorem exists_digitChar (h : c.isDigit = true) : ∃ d < 10, c = Nat.digitChar d := by
  have hrange : 48 ≤ c.toNat ∧ c.toNat ≤ 57 := by
    simpa [Char.isDigit, Char.le_def, UInt32.le_iff_toNat_le] using h
  refine ⟨c.toNat - 48, by omega, ?_⟩
  rw [← Char.toNat_inj, Nat.toNat_digitChar_of_lt_ten (by omega)]
  omega

/-- Digits are those of their number, with zeros in front. -/
theorem exists_zeros (hne : digits ≠ []) (hdigits : ∀ c ∈ digits, c.isDigit = true) :
    ∃ zeros, digits =
      List.replicate zeros '0' ++ Nat.toDigits 10 (Nat.ofDigitChars 10 digits 0) := by
  induction digits using List.reverseRecOn with
  | nil => exact absurd rfl hne
  | append_singleton front c ih =>
    obtain ⟨d, hd, rfl⟩ := exists_digitChar (hdigits c (by simp))
    rw [Nat.ofDigitChars_append, Nat.ofDigitChars_cons_digitChar_of_lt_ten hd,
      Nat.ofDigitChars_nil, ← Nat.toDigits_of_lt_base hd]
    by_cases hfront : front = []
    · exact ⟨0, by simp [hfront]⟩
    · obtain ⟨zeros, hzeros⟩ := ih hfront fun c hc => hdigits c (by simp [hc])
      by_cases hzero : Nat.ofDigitChars 10 front 0 = 0
      · -- So far there were only zeros, and the last one counts as one of those in front.
        refine ⟨zeros + 1, ?_⟩
        rw [hzero, Nat.toDigits_zero] at hzeros
        rw [hzero, hzeros, Nat.mul_zero, Nat.zero_add, List.replicate_succ']
      · refine ⟨zeros, ?_⟩
        rw [← Nat.toDigits_append_toDigits (by decide) (Nat.pos_of_ne_zero hzero) hd,
          ← List.append_assoc, ← hzeros]

theorem isDigit_of_mem_zeros {zeros : Nat}
    (h : c ∈ List.replicate zeros '0' ++ Nat.toDigits 10 n) : c.isDigit = true := by
  rcases List.mem_append.1 h with h | h
  · rw [List.eq_of_mem_replicate h]
    decide
  · exact Nat.isDigit_of_mem_toDigits (by decide) (by decide) h

/-- One or more digits denote a number exactly if they are its digits with zeros in front. -/
theorem ofDigitChars_eq_iff : ((digits ≠ [] ∧ ∀ c ∈ digits, c.isDigit = true) ∧
    Nat.ofDigitChars 10 digits 0 = n) ↔
      ∃ zeros, digits = List.replicate zeros '0' ++ Nat.toDigits 10 n := by
  constructor
  · rintro ⟨⟨hne, hdigits⟩, rfl⟩
    exact exists_zeros hne hdigits
  · rintro ⟨zeros, rfl⟩
    refine ⟨⟨?_, fun c => isDigit_of_mem_zeros⟩, ?_⟩
    · exact List.append_ne_nil_of_right_ne_nil _ Nat.toDigits_ne_nil
    · rw [Nat.ofDigitChars_append, Nat.ofDigitChars_replicate_zero, Nat.mul_zero,
        Nat.ofDigitChars_ten_toDigits]

/-! ## Signs -/

theorem isDecimal_plus_iff : IsDecimal n ('+' :: digits) ↔
    ∃ zeros, digits = List.replicate zeros '0' ++ Nat.toDigits 10 n := by
  constructor
  · intro h
    generalize htext : '+' :: digits = text at h
    obtain ⟨zeros, rfl | rfl⟩ := h
    · -- The sign is no digit.
      have hplus : '+' ∈ List.replicate zeros '0' ++ Nat.toDigits 10 n := by
        rw [← List.nil_append (_ ++ _), ← htext]
        exact List.mem_cons_self
      exact absurd (isDigit_of_mem_zeros hplus) (by decide)
    · exact ⟨zeros, (List.cons.inj htext).2⟩
  · rintro ⟨zeros, rfl⟩
    exact .intro zeros (.inr rfl)

theorem isDecimal_unsigned_iff (h : ∀ rest, cs ≠ '+' :: rest) : IsDecimal n cs ↔
    ∃ zeros, cs = List.replicate zeros '0' ++ Nat.toDigits 10 n := by
  constructor
  · rintro ⟨zeros, rfl | rfl⟩
    · exact ⟨zeros, rfl⟩
    · exact absurd rfl (h _)
  · rintro ⟨zeros, rfl⟩
    exact .intro zeros (.inl rfl)

/-- A number below the bound is read from its decimal forms and from no other text. -/
theorem readDecimal?_eq_some_iff :
    readDecimal? bound cs = some n ↔ n < bound ∧ IsDecimal n cs := by
  have hread (digits : List Char) :
      (if digits ≠ [] ∧ digits.all Char.isDigit then
        if Nat.ofDigitChars 10 digits 0 < bound then some (Nat.ofDigitChars 10 digits 0) else none
      else none) = some n ↔
        n < bound ∧ ∃ zeros, digits = List.replicate zeros '0' ++ Nat.toDigits 10 n := by
    rw [← ofDigitChars_eq_iff]
    simp only [List.all_eq_true]
    grind
  unfold readDecimal?
  dsimp only
  split
  · rw [hread, isDecimal_plus_iff]
  · next hsign => rw [hread, isDecimal_unsigned_iff fun rest => hsign rest]

/-! ## Blanks -/

/-- Dropping blanks stops at a text without any. -/
theorem dropWhile_blanks {gap tail : List Char} (hgap : Blanks gap) (hne : cs ≠ [])
    (hcs : ∀ c ∈ cs, isBlank c = false) : (gap ++ (cs ++ tail)).dropWhile isBlank = cs ++ tail := by
  obtain ⟨c, rest, rfl⟩ := List.exists_cons_of_ne_nil hne
  have hc : ¬isBlank c = true := by simp [hcs c List.mem_cons_self]
  rw [List.dropWhile_append_of_pos hgap, List.cons_append, List.dropWhile_cons_of_neg hc]

/-- Of a text without blanks and of blanks around it trimming leaves the text. -/
theorem trimChars_append (hbefore : Blanks before) (hne : cs ≠ [])
    (hcs : ∀ c ∈ cs, isBlank c = false) (hafter : Blanks after) :
    trimChars (before ++ cs ++ after) = cs := by
  have hend : (after.reverse ++ (cs.reverse ++ [])).dropWhile isBlank = cs.reverse ++ [] :=
    dropWhile_blanks (fun c hc => hafter c (List.mem_reverse.1 hc))
      (List.reverse_ne_nil_iff.2 hne) fun c hc => hcs c (List.mem_reverse.1 hc)
  rw [List.append_nil] at hend
  rw [trimChars, List.append_assoc, dropWhile_blanks hbefore hne hcs, List.reverse_append, hend,
    List.reverse_reverse]

/-- A trimmed text has lost blanks at its ends and nothing else. -/
theorem exists_trimChars (cs : List Char) : ∃ before after, Blanks before ∧ Blanks after ∧
    cs = before ++ trimChars cs ++ after := by
  have hend := List.takeWhile_append_dropWhile (p := isBlank) (l := (cs.dropWhile isBlank).reverse)
  refine ⟨cs.takeWhile isBlank, ((cs.dropWhile isBlank).reverse.takeWhile isBlank).reverse, ?_, ?_,
    ?_⟩
  · exact fun c hc => List.mem_takeWhile_imp hc
  · exact fun c hc => List.mem_takeWhile_imp (List.mem_reverse.1 hc)
  · rw [trimChars, List.append_assoc, ← List.reverse_append, hend, List.reverse_reverse,
      List.takeWhile_append_dropWhile]

theorem IsDecimal.ne_nil (h : IsDecimal n cs) : cs ≠ [] := by
  obtain ⟨zeros, -⟩ := h
  simp [Nat.toDigits_ne_nil]

/-- There are no blanks within a number. -/
theorem IsDecimal.isBlank_eq (h : IsDecimal n cs) : ∀ c ∈ cs, isBlank c = false := by
  obtain ⟨zeros, hsign⟩ := h
  refine fun c hc => ?_
  rcases List.mem_append.1 hc with hc | hc
  · rcases hsign with rfl | rfl
    · cases hc
    · rw [List.mem_singleton.1 hc]
      decide
  · obtain ⟨d, hd, rfl⟩ := exists_digitChar (isDigit_of_mem_zeros hc)
    have hdigits : ∀ d < 10, isBlank (Nat.digitChar d) = false := by decide
    exact hdigits d hd

/-- A number below the bound is read from a trimmed text exactly if the text denotes it. -/
theorem readDecimal?_trimChars_eq_some_iff :
    readDecimal? bound (trimChars cs) = some n ↔ n < bound ∧ Denotes n cs := by
  rw [readDecimal?_eq_some_iff]
  refine and_congr_right fun _ => ⟨fun h => ?_, ?_⟩
  · obtain ⟨before, after, hbefore, hafter, hcs⟩ := exists_trimChars cs
    rw [hcs]
    exact .intro hbefore h hafter
  · rintro ⟨hbefore, h, hafter⟩
    rwa [trimChars_append hbefore h.ne_nil h.isBlank_eq hafter]

end SecondFactor.Text
