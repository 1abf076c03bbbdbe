/-!
# Byte Strings

Keys, signatures, hashes and messages are byte strings, kept as lists of bytes. This module
holds their reading as big-endian numbers and byte strings whose length is part of their type
(`FixedBytes`), such as addresses and hashes.
-/

namespace SecondFactor

/-- A byte string. -/
abbrev Bytes := List UInt8

namespace Bytes

/-- The number that a byte string denotes, most significant byte first. -/
def toNat (b : Bytes) : Nat :=
  b.foldl (fun n d => n * 256 + d.toNat) 0

/-- The last `width` base-256 digits of a number, most significant digit first. -/
def ofNat : (width : Nat) → Nat → Bytes
  | 0, _ => []
  | width + 1, n => ofNat width (n / 256) ++ [UInt8.ofNat n]

/-- The number of byte strings of a width. -/
def count : (width : Nat) → Nat
  | 0 => 1
  | width + 1 => count width * 256

@[simp] theorem length_ofNat (width n : Nat) : (ofNat width n).length = width := by
  induction width generalizing n with
  | zero => rfl
  | succ width ih => simp [ofNat, ih]

@[simp] theorem toNat_nil : toNat [] = 0 := rfl

@[simp] theorem toNat_append_singleton (b : Bytes) (d : UInt8) :
    toNat (b ++ [d]) = toNat b * 256 + d.toNat := by
  simp [toNat]

/-- Writing a number with enough digits and reading it back gives the number. -/
theorem toNat_ofNat {width n : Nat} (h : n < count width) : toNat (ofNat width n) = n := by
  induction width generalizing n with
  | zero =>
    obtain rfl : n = 0 := Nat.lt_one_iff.1 h
    rfl
  | succ width ih =>
    have hq : n / 256 < count width := (Nat.div_lt_iff_lt_mul (by decide)).2 h
    rw [ofNat, toNat_append_singleton, ih hq, UInt8.toNat_ofNat']
    omega

end Bytes

/-- A byte string of exactly `size` bytes. -/
@[ext] structure FixedBytes (size : Nat) where
  /-- The bytes themselves. -/
  bytes : Bytes
  /-- There are `size` of them. -/
  length_eq : bytes.length = size
deriving DecidableEq

namespace FixedBytes

variable {size : Nat}

/-- A byte string as one of fixed size, if it has that size. -/
def ofBytes? (size : Nat) (b : Bytes) : Option (FixedBytes size) :=
  if h : b.length = size then some ⟨b, h⟩ else none

@[simp] theorem ofBytes?_bytes (b : FixedBytes size) : ofBytes? size b.bytes = some b := by
  simp [ofBytes?, b.length_eq]

theorem ofBytes?_eq_some_iff {b : Bytes} {f : FixedBytes size} :
    ofBytes? size b = some f ↔ b = f.bytes := by
  constructor
  · intro h
    unfold ofBytes? at h
    split at h
    · exact congrArg bytes (Option.some.inj h)
    · cases h
  · rintro rfl
    exact ofBytes?_bytes f

/-- The string of `size` zero bytes. -/
def zero (size : Nat) : FixedBytes size :=
  ⟨List.replicate size 0, List.length_replicate⟩

/-- The last `size` base-256 digits of a number. -/
def ofNat (size n : Nat) : FixedBytes size :=
  ⟨Bytes.ofNat size n, Bytes.length_ofNat size n⟩

/-- The number that the bytes denote, most significant byte first. -/
def toNat (b : FixedBytes size) : Nat :=
  Bytes.toNat b.bytes

end FixedBytes

/-- A 32-byte digest or block hash. -/
abbrev Hash := FixedBytes 32

/-- A 20-byte address of an account or of a validator. -/
abbrev Address := FixedBytes 20

end SecondFactor
