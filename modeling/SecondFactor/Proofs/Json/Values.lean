import SecondFactor.Config.Policy
import SecondFactor.Proofs.Decimal
import SecondFactor.Proofs.Json.Records

/-!
# Texts, Numbers and Names Read Back

The JSON forms of the values that records are made of: any text as a string, a natural number as its
decimal digits, a byte string as an array of numbers, a policy as its name. Each of them is a value
that can be written, and gives back what it stands for.
-/

namespace SecondFactor

namespace Json

/-! ## Numbers -/

/-- The digits that are written are bytes, each of which stands for its character. -/
theorem byte_digitChar : ∀ d < 10, isDigit (byte (Nat.digitChar d)) = true ∧
    Char.ofUInt8 (byte (Nat.digitChar d)) = Nat.digitChar d ∧
    (byte (Nat.digitChar d) = byte '0' → d = 0) := by
  decide

/-- The digits of a positive number do not start with a zero. -/
theorem exists_toDigits_eq_cons {n : Nat} (h : 0 < n) :
    ∃ d rest, Nat.toDigits 10 n = Nat.digitChar d :: rest ∧ 0 < d ∧ d < 10 := by
  induction n using Nat.strong_induction_on with
  | _ n ih =>
    by_cases hn : n < 10
    · exact ⟨n, [], Nat.toDigits_of_lt_base hn, h, hn⟩
    · obtain ⟨d, rest, hdigits, hpos, hlt⟩ := ih (n / 10) (by omega) (by omega)
      refine ⟨d, rest ++ [Nat.digitChar (n % 10)], ?_, hpos, hlt⟩
      rw [Nat.toDigits_of_base_le (by decide) (Nat.le_of_not_lt hn), hdigits, List.cons_append]

/-- The digits of a number in decimal are a numeral. -/
theorem isNumeral_toDigits (n : Nat) : IsNumeral ((Nat.toDigits 10 n).map byte) where
  all_isDigit := by
    intro b hb
    obtain ⟨c, hc, rfl⟩ := List.mem_map.1 hb
    obtain ⟨d, hd, rfl⟩ := Text.exists_digitChar
      (Nat.isDigit_of_mem_toDigits (by decide) (by decide) hc)
    exact (byte_digitChar d hd).1
  isWhole_eq := by
    rcases Nat.eq_zero_or_pos n with rfl | hpos
    · decide
    · obtain ⟨d, rest, hdigits, hd, hlt⟩ := exists_toDigits_eq_cons hpos
      have hne : byte (Nat.digitChar d) ≠ byte '0' := fun hzero =>
        Nat.ne_of_gt hd ((byte_digitChar d hlt).2.2 hzero)
      rw [hdigits, List.map_cons]
      cases rest with
      | nil => rfl
      | cons c rest => exact bne_iff_ne.2 hne

theorem plain_ofNat (n : Nat) : Plain (ofNat n) :=
  .number (isNumeral_toDigits n)

/-- A number below the bound reads back from its digits. -/
theorem nat?_ofNat {bound n : Nat} (h : n < bound) : (ofNat n).nat? bound = some n := by
  have hdigits : ((Nat.toDigits 10 n).map byte).all isDigit = true :=
    List.all_eq_true.2 (isNumeral_toDigits n).all_isDigit
  have hchars : ((Nat.toDigits 10 n).map byte).map Char.ofUInt8 = Nat.toDigits 10 n := by
    rw [List.map_map]
    refine (List.map_congr_left fun c hc => ?_).trans (List.map_id _)
    obtain ⟨d, hd, rfl⟩ := Text.exists_digitChar
      (Nat.isDigit_of_mem_toDigits (by decide) (by decide) hc)
    exact (byte_digitChar d hd).2.1
  rw [ofNat, nat?, if_pos hdigits, hchars, Nat.ofDigitChars_ten_toDigits]
  exact if_pos h

/-- A byte string is written as an array of numbers. -/
theorem plain_ofByteNumbers (b : Bytes) : Plain (ofByteNumbers b) := by
  refine .array fun element helement => ?_
  obtain ⟨d, -, rfl⟩ := List.mem_map.1 helement
  exact plain_ofNat d.toNat

/-- A byte string reads back from the array of its numbers. -/
theorem byteNumbers?_ofByteNumbers (b : Bytes) : (ofByteNumbers b).byteNumbers? = some b :=
  list?_map (fun d => by rw [nat?_ofNat d.toNat_lt]; simp) b

/-- A name that is written as a string is looked up among the variants. -/
theorem variant?_ofText {α : Type} (variants : List (String × α)) (name : String) :
    variant? variants (ofText name) = variants.lookup name := by
  simp only [ofText, variant?, text?, Text.ofUtf8?_utf8]

end Json

/-! ## Types -/

namespace LawfulWire

open Json

instance : LawfulWire String where
  plain_toJson s := .string (Text.utf8 s)
  ofJson?_toJson s := Text.ofUtf8?_utf8 s

instance : LawfulWire UInt64 where
  plain_toJson n := plain_ofNat n.toNat
  ofJson?_toJson n := by
    change ((ofNat n.toNat).nat? UInt64.size).map UInt64.ofNat = some n
    rw [nat?_ofNat n.toNat_lt, Option.map_some, UInt64.ofNat_toNat]

instance : LawfulWire RebindPolicy where
  plain_toJson policy := .string (Text.utf8 policy.name)
  ofJson?_toJson policy := by
    refine (variant?_ofText _ _).trans ?_
    cases policy <;> rfl

end LawfulWire

end SecondFactor
