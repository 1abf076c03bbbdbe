import SecondFactor.Curve.Field

/-!
# Points of secp256k1

Points of `y² = x³ + 7` in weighted coordinates: the triple `(x, y, z)` stands for the affine
point `(x / z², y / z³)`, and every triple with `z = 0` for the point at infinity. Addition and
doubling then need no inverses.
-/

namespace SecondFactor.Curve

/-- A point in weighted coordinates. -/
structure Point where
  /-- The first coordinate, weighted by `z²`. -/
  x : Coordinate
  /-- The second coordinate, weighted by `z³`. -/
  y : Coordinate
  /-- The weight; zero at infinity. -/
  z : Coordinate

namespace Point

/-- The neutral point. -/
def infinity : Point := ⟨1, 1, 0⟩

/-- The point with the given affine coordinates. -/
def ofAffine (x y : Coordinate) : Point := ⟨x, y, 1⟩

/-- The generator of the group. -/
def generator : Point :=
  ofAffine 0x79BE667EF9DCBBAC55A06295CE870B07029BFCDB2DCE28D959F2815B16F81798
    0x483ADA7726A3C4655DA4FBFC0E1108A8FD17B448A68554199C47D08FFB10D4B8

/-- Twice a point. -/
def double (p : Point) : Point :=
  let a := p.x * p.x
  let b := p.y * p.y
  let c := b * b
  let s := p.x + b
  let d := 2 * (s * s - a - c)
  let e := 3 * a
  let x := e * e - 2 * d
  ⟨x, e * (d - x) - 8 * c, 2 * p.y * p.z⟩

/-- The sum of two points. -/
def add (p q : Point) : Point :=
  if p.z = 0 then q
  else if q.z = 0 then p
  else
    let pzz := p.z * p.z
    let qzz := q.z * q.z
    let u := p.x * qzz
    let s := p.y * qzz * q.z
    let h := q.x * pzz - u
    let r := q.y * pzz * p.z - s
    if h = 0 then
      if r = 0 then double p else infinity
    else
      let hh := h * h
      let hhh := hh * h
      let v := u * hh
      let x := r * r - hhh - 2 * v
      ⟨x, r * (v - x) - s * hhh, h * p.z * q.z⟩

/-- A multiple of a point. -/
def scale (k : Scalar) (p : Point) : Point :=
  overBits double (add · p) infinity k.val

/-- The affine coordinates of a point, unless it is at infinity. -/
def affine? (p : Point) : Option (Coordinate × Coordinate) :=
  if p.z = 0 then none
  else
    let w := inverse p.z
    let ww := w * w
    some (p.x * ww, p.y * ww * w)

end Point

end SecondFactor.Curve
