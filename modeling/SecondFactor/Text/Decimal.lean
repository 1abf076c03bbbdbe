/-!
# Decimal Numbers in Free Text

The reading of a number that a person wrote in a setting: decimal digits, any leading zeros, at
most one plus sign, and a value below a bound.
-/

namespace SecondFactor.Text

/-- The number below `bound` that one or more digits denote, after an optional plus sign. -/
def readDecimal? (bound : Nat) (cs : List Char) : Option Nat :=
  let digits := match cs with
    | '+' :: rest => rest
    | cs => cs
  if digits ≠ [] ∧ digits.all Char.isDigit then
    let n := Nat.ofDigitChars 10 digits 0
    if n < bound then some n else none
  else none

end SecondFactor.Text
