/-!
# Arithmetic of secp256k1

Coordinates of curve points are integers modulo the field size, multipliers of points are
integers modulo the group order. Both moduli are primes of 256 bits, so inverses and square
roots are powers.
-/

namespace SecondFactor.Curve

/-- The size of the coordinate field. -/
def fieldSize : Nat := 0xFFFFFFFFFFFFFFFFFFFFFFFFFFFFFFFFFFFFFFFFFFFFFFFFFFFFFFFEFFFFFC2F

/-- The order of the group of points. -/
def order : Nat := 0xFFFFFFFFFFFFFFFFFFFFFFFFFFFFFFFEBAAEDCE6AF48A03BBFD25E8CD0364141

instance : @NeZero Nat ⟨0⟩ fieldSize := ⟨by decide⟩

instance : @NeZero Nat ⟨0⟩ order := ⟨by decide⟩

/-- A coordinate of a point. -/
abbrev Coordinate := Fin fieldSize

/-- A multiplier of points. -/
abbrev Scalar := Fin order

/-- Runs over the bits of a 256-bit number from the highest: `double` at every bit, then `add`
where the bit is set. With squaring and multiplying this is a power, with doubling and adding a
multiple. -/
def overBits {α : Type} (double add : α → α) (start : α) (e : Nat) : α :=
  (List.range 256).foldr
    (fun i acc => let twice := double acc; if e.testBit i then add twice else twice) start

/-- The number one, modulo the modulus of a given number. -/
def oneLike {m : Nat} (x : Fin m) : Fin m :=
  ⟨1 % m, Nat.mod_lt 1 x.pos⟩

/-- A power with an exponent of at most 256 bits. -/
def power {m : Nat} (x : Fin m) (e : Nat) : Fin m :=
  overBits (fun acc => acc * acc) (· * x) (oneLike x) e

/-- The inverse of a number that is not zero modulo a prime. -/
def inverse {m : Nat} (x : Fin m) : Fin m :=
  power x (m - 2)

/-- A square root of a coordinate, if it has one. The field size is 3 modulo 4, so a root of a
square is its power by a quarter of the field size plus one. -/
def sqrt? (x : Coordinate) : Option Coordinate :=
  let root := power x ((fieldSize + 1) / 4)
  if root * root = x then some root else none

end SecondFactor.Curve
