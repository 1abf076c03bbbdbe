import SecondFactor.Bytes
import SecondFactor.Curve.Point

/-!
# Public Keys

A public key is an affine point of the curve. It is read from the tagged forms of the SEC 1
standard and written in the uncompressed form: tag `04`, then both coordinates. The main
statement is `decode?_encode`.
-/

namespace SecondFactor.Curve

/-- An affine point of the curve. -/
@[ext] structure PublicKey where
  /-- The first coordinate. -/
  x : Coordinate
  /-- The second coordinate. -/
  y : Coordinate
  /-- The point satisfies the equation of the curve. -/
  on_curve : y * y = x * x * x + 7
deriving DecidableEq

/-- The coordinate that 32 bytes denote; numbers past the field size are refused. -/
def Coordinate.ofBytes? (b : Bytes) : Option Coordinate :=
  let n := Bytes.toNat b
  if h : n < fieldSize then some ⟨n, h⟩ else none

/-- The 32 bytes of a coordinate. -/
def Coordinate.bytes (c : Coordinate) : Bytes :=
  Bytes.ofNat 32 c.val

namespace PublicKey

/-- The key with the given coordinates, if they are a point of the curve. -/
def ofCoordinates? (x y : Coordinate) : Option PublicKey :=
  if h : y * y = x * x * x + 7 then some ⟨x, y, h⟩ else none

/-- The key at a point, unless the point is at infinity. -/
def ofPoint? (p : Point) : Option PublicKey :=
  match p.affine? with
  | some (x, y) => ofCoordinates? x y
  | none => none

/-- The key as a point. -/
def point (key : PublicKey) : Point :=
  Point.ofAffine key.x key.y

/-- The key with a given first coordinate whose second coordinate is odd or even as asked. -/
def ofParity? (x : Coordinate) (odd : Bool) : Option PublicKey :=
  match sqrt? (x * x * x + 7) with
  | some y => ofCoordinates? x (if (y.val % 2 == 1) = odd then y else -y)
  | none => none

/-- Reads a tagged key: `04` with both coordinates, `02` and `03` with the first coordinate of
the even and of the odd point, `05` with the first coordinate of the even point. -/
def decode? : Bytes → Option PublicKey
  | [] => none
  | tag :: body =>
    if tag = 0x04 ∧ body.length = 64 then
      match Coordinate.ofBytes? (body.take 32), Coordinate.ofBytes? (body.drop 32) with
      | some x, some y => ofCoordinates? x y
      | _, _ => none
    else if (tag = 0x02 ∨ tag = 0x03 ∨ tag = 0x05) ∧ body.length = 32 then
      match Coordinate.ofBytes? body with
      | some x => ofParity? x (tag == 0x03)
      | none => none
    else none

/-- The uncompressed form: tag `04`, then both coordinates. -/
def encode (key : PublicKey) : Bytes :=
  0x04 :: (key.x.bytes ++ key.y.bytes)

end PublicKey

@[simp] theorem Coordinate.length_bytes (c : Coordinate) : c.bytes.length = 32 := by
  simp [Coordinate.bytes]

@[simp] theorem Coordinate.ofBytes?_bytes (c : Coordinate) :
    Coordinate.ofBytes? c.bytes = some c := by
  have hc : c.val < Bytes.count 32 := Nat.lt_trans c.isLt (by decide)
  simp [Coordinate.ofBytes?, Coordinate.bytes, Bytes.toNat_ofNat hc]

namespace PublicKey

@[simp] theorem length_encode (key : PublicKey) : key.encode.length = 65 := by
  simp [encode]

/-- The uncompressed form of a key reads back as the key. -/
@[simp] theorem decode?_encode (key : PublicKey) : decode? key.encode = some key := by
  have htake : (key.x.bytes ++ key.y.bytes).take 32 = key.x.bytes := by
    rw [List.take_left' (Coordinate.length_bytes key.x)]
  have hdrop : (key.x.bytes ++ key.y.bytes).drop 32 = key.y.bytes := by
    rw [List.drop_left' (Coordinate.length_bytes key.x)]
  simp [decode?, encode, htake, hdrop, ofCoordinates?, key.on_curve]

end PublicKey

end SecondFactor.Curve
