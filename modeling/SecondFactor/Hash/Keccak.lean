import SecondFactor.Hash.Blocks

/-!
# Keccak-256

The sponge over the Keccak-f[1600] permutation with a rate of 136 bytes, a digest of 32 bytes and
the padding that appends `0x01`, zeros and a final `0x80`. A state is 25 lanes of 64 bits; lane
`x + 5 * y` stands in column `x` and row `y`.
-/

namespace SecondFactor.Hash.Keccak

/-- The 25 lanes of the permutation. -/
abbrev State := Vector UInt64 25

/-- Rotation towards the high end; an offset of zero leaves the lane as it is. -/
def rotate (lane : UInt64) (offset : Nat) : UInt64 :=
  if offset = 0 then lane
  else (lane <<< UInt64.ofNat offset) ||| (lane >>> UInt64.ofNat (64 - offset))

/-- Adds to each lane the parities of the column before it and of the rotated column after it. -/
def theta (a : State) : State :=
  let parity : Vector UInt64 5 :=
    Vector.ofFn fun x => a[x.val] ^^^ a[x.val + 5] ^^^ a[x.val + 10] ^^^ a[x.val + 15] ^^^
      a[x.val + 20]
  let effect : Vector UInt64 5 :=
    Vector.ofFn fun x => parity[x + 4] ^^^ rotate parity[x + 1] 1
  Vector.ofFn fun i => a[i] ^^^ effect[i.val % 5]

/-- The offset by which each lane is rotated. -/
def offsets : Vector Nat 25 :=
  #v[0, 1, 62, 28, 27, 36, 44, 6, 55, 20, 3, 10, 43, 25, 39, 41, 45, 15, 21, 8, 18, 2, 61, 56, 14]

/-- Rotates every lane by its offset and moves the lane at `(x, y)` to `(y, 2 * x + 3 * y)`. -/
def rhoPi (a : State) : State :=
  Vector.ofFn fun i =>
    let x := i.val % 5
    let y := i.val / 5
    let source : Fin 25 := ⟨(x + 3 * y) % 5 + 5 * x, by omega⟩
    rotate a[source] offsets[source]

/-- Combines each lane with the two that follow it in its row. -/
def chi (a : State) : State :=
  Vector.ofFn fun i =>
    let row := 5 * (i.val / 5)
    let next : Fin 25 := ⟨row + (i.val + 1) % 5, by omega⟩
    let afterNext : Fin 25 := ⟨row + (i.val + 2) % 5, by omega⟩
    a[i] ^^^ (~~~a[next] &&& a[afterNext])

/-- The constants added to the first lane, one for each of the 24 rounds. -/
def roundConstants : List UInt64 :=
  [0x0000000000000001, 0x0000000000008082, 0x800000000000808A, 0x8000000080008000,
   0x000000000000808B, 0x0000000080000001, 0x8000000080008081, 0x8000000000008009,
   0x000000000000008A, 0x0000000000000088, 0x0000000080008009, 0x000000008000000A,
   0x000000008000808B, 0x800000000000008B, 0x8000000000008089, 0x8000000000008003,
   0x8000000000008002, 0x8000000000000080, 0x000000000000800A, 0x800000008000000A,
   0x8000000080008081, 0x8000000000008080, 0x0000000080000001, 0x8000000080008008]

/-- One round with its constant. -/
def round (a : State) (constant : UInt64) : State :=
  let b := chi (rhoPi (theta a))
  b.set 0 (b[0] ^^^ constant)

/-- The permutation Keccak-f[1600]. -/
def permute (a : State) : State :=
  roundConstants.foldl round a

/-- The number of message bytes absorbed at a time. -/
def rate : Nat := 136

/-- The message with its padding, a whole number of blocks. -/
def pad (message : Bytes) : Bytes :=
  match rate - message.length % rate with
  -- Where a single byte is missing it takes both marks.
  | 1 => message ++ [0x81]
  | missing => message ++ 0x01 :: List.replicate (missing - 2) 0 ++ [0x80]

/-- The lane that eight bytes denote, least significant byte first. -/
def laneOfBytes (b : Bytes) : UInt64 :=
  b.foldr (fun d lane => lane <<< 8 ||| d.toUInt64) 0

/-- The eight bytes of a lane, least significant byte first. -/
def laneBytes (lane : UInt64) : Bytes :=
  (List.range 8).map fun i => (lane >>> UInt64.ofNat (8 * i)).toUInt8

/-- Adds a block to the first lanes of the state and permutes it. -/
def absorb (a : State) (block : Bytes) : State :=
  permute <| Vector.ofFn fun i => a[i] ^^^ laneOfBytes ((block.drop (8 * i.val)).take 8)

/-- The 32-byte digest of a message. -/
def digest (message : Bytes) : Hash :=
  let a := (blocks rate (pad message)).foldl absorb (Vector.replicate 25 0)
  ⟨laneBytes a[0] ++ laneBytes a[1] ++ laneBytes a[2] ++ laneBytes a[3], rfl⟩

end SecondFactor.Hash.Keccak
