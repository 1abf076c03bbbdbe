import SecondFactor.Bytes

/-!
# Scalars of a Signature as Bytes

The range checks on the two numbers of a signature and the negation of the second one, done on
their 32 bytes. The comparison visits every byte whatever it has found before, so that its
course does not depend on the numbers; the subtraction carries a borrow from the last byte to
the first.
-/

namespace SecondFactor.Signature

/-- A number of a signature: 32 bytes, most significant first. -/
abbrev ScalarBytes := FixedBytes 32

/-- The order of the group of points. -/
def orderBytes : ScalarBytes :=
  ⟨[0xFF, 0xFF, 0xFF, 0xFF, 0xFF, 0xFF, 0xFF, 0xFF, 0xFF, 0xFF, 0xFF, 0xFF, 0xFF, 0xFF, 0xFF, 0xFE,
    0xBA, 0xAE, 0xDC, 0xE6, 0xAF, 0x48, 0xA0, 0x3B, 0xBF, 0xD2, 0x5E, 0x8C, 0xD0, 0x36, 0x41, 0x41],
    rfl⟩

/-- Half the order, rounded down: the bound below which the second number has to stay. -/
def halfOrderBytes : ScalarBytes :=
  ⟨[0x7F, 0xFF, 0xFF, 0xFF, 0xFF, 0xFF, 0xFF, 0xFF, 0xFF, 0xFF, 0xFF, 0xFF, 0xFF, 0xFF, 0xFF, 0xFF,
    0x5D, 0x57, 0x6E, 0x73, 0x57, 0xA4, 0x50, 0x1D, 0xDF, 0xE9, 0x2F, 0x46, 0x68, 0x1B, 0x20, 0xA0],
    rfl⟩

/-- What a comparison has decided so far; at first nothing. -/
structure Comparison where
  /-- The first number is smaller. -/
  less : Bool := false
  /-- The first number is greater. -/
  greater : Bool := false

/-- Takes the next byte of both numbers into account, unless the comparison is decided. -/
def Comparison.step (c : Comparison) (a b : UInt8) : Comparison :=
  let undecided := !(c.less || c.greater)
  ⟨c.less || undecided && decide (a < b), c.greater || undecided && decide (b < a)⟩

/-- Compares two numbers of equal width from their first bytes on. -/
def compare (a b : Bytes) : Comparison :=
  (a.zip b).foldl (fun c (x, y) => c.step x y) {}

/-- A number strictly below half the order. -/
def isLow (s : ScalarBytes) : Bool :=
  (compare s.bytes halfOrderBytes.bytes).less

/-- A number from 1 up to the order, the order excluded. -/
def isValid (s : ScalarBytes) : Bool :=
  let isZero := s.bytes.foldl (fun zero b => zero && b == 0) true
  !isZero && (compare s.bytes orderBytes.bytes).less

/-- The difference of two digits less a borrow: the digit to write and the borrow to pass on. -/
def borrowStep (a b : UInt8) (borrow : Int) : UInt8 × Int :=
  let difference : Int := a.toNat - b.toNat - borrow
  if difference < 0 then (UInt8.ofNat (difference + 256).toNat, 1)
  else (UInt8.ofNat difference.toNat, 0)

/-- The digits of a difference and the borrow that is left, for digits given in pairs. -/
def subtract : List (UInt8 × UInt8) → Bytes × Int
  | [] => ([], 0)
  | (a, b) :: rest =>
    let (digits, borrow) := subtract rest
    let (digit, borrow) := borrowStep a b borrow
    (digit :: digits, borrow)

@[simp] theorem length_subtract (pairs : List (UInt8 × UInt8)) :
    (subtract pairs).1.length = pairs.length := by
  induction pairs with
  | nil => rfl
  | cons pair rest ih => simp [subtract, ih]

/-- The order less a number. -/
def negate (s : ScalarBytes) : ScalarBytes :=
  ⟨(subtract (orderBytes.bytes.zip s.bytes)).1, by simp [orderBytes.length_eq, s.length_eq]⟩

/-- The low one of a number and its negative, and whether it is the negative. -/
def normalize (s : ScalarBytes) : ScalarBytes × Bool :=
  if isLow s then (s, false) else (negate s, true)

end SecondFactor.Signature
