import SecondFactor.Bytes

/-!
# Hexadecimal Text

Byte strings written as pairs of hexadecimal digits. Writing uses lower-case digits; reading
takes either case. Digits are ASCII codes, so that the same functions serve free text and the
strings inside a record. The main statement is `decode?_encode`: what is written reads back.
-/

namespace SecondFactor.Hex

/-- The lower-case digit of a value below sixteen. -/
def digit (n : Nat) : UInt8 :=
  UInt8.ofNat (if n < 10 then 48 + n else 87 + n)

/-- The value of a digit of either case. -/
def digitValue? (d : UInt8) : Option Nat :=
  let c := d.toNat
  if 48 ≤ c ∧ c ≤ 57 then some (c - 48)
  else if 97 ≤ c ∧ c ≤ 102 then some (c - 87)
  else if 65 ≤ c ∧ c ≤ 70 then some (c - 55)
  else none

/-- Two digits for each byte, high half first. -/
def encode : Bytes → Bytes
  | [] => []
  | b :: rest => digit (b.toNat / 16) :: digit (b.toNat % 16) :: encode rest

/-- The bytes that an even number of digits denotes; nothing else is read. -/
def decode? : Bytes → Option Bytes
  | [] => some []
  | [_] => none
  | hi :: lo :: rest =>
    match digitValue? hi, digitValue? lo, decode? rest with
    | some h, some l, some tail => some (UInt8.ofNat (h * 16 + l) :: tail)
    | _, _, _ => none

/-- The digits of a byte string as text. -/
def text (b : Bytes) : String :=
  String.ofList ((encode b).map Char.ofUInt8)

@[simp] theorem digitValue?_digit : ∀ n < 16, digitValue? (digit n) = some n := by
  decide

/-- What is written reads back. -/
@[simp] theorem decode?_encode (b : Bytes) : decode? (encode b) = some b := by
  induction b with
  | nil => rfl
  | cons b rest ih =>
    have hb : b.toNat < 256 := b.toNat_lt
    have hhi : b.toNat / 16 < 16 := by omega
    have hlo : b.toNat % 16 < 16 := by omega
    have hsum : b.toNat / 16 * 16 + b.toNat % 16 = b.toNat := by omega
    simp [encode, decode?, ih, digitValue?_digit _ hhi, digitValue?_digit _ hlo, hsum]

@[simp] theorem length_encode (b : Bytes) : (encode b).length = 2 * b.length := by
  induction b with
  | nil => rfl
  | cons b rest ih => simp [encode, ih]; omega

end SecondFactor.Hex
