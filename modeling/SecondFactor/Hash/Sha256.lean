import SecondFactor.Hash.Blocks

/-!
# SHA-256

The compression function over sixteen message words, kept as a sliding window, and the padding
that appends `0x80`, zeros and the length in bits.
-/

namespace SecondFactor.Hash.Sha256

/-- The eight working words. -/
structure Registers where
  /-- First working word. -/
  a : UInt32
  /-- Second working word. -/
  b : UInt32
  /-- Third working word. -/
  c : UInt32
  /-- Fourth working word. -/
  d : UInt32
  /-- Fifth working word. -/
  e : UInt32
  /-- Sixth working word. -/
  f : UInt32
  /-- Seventh working word. -/
  g : UInt32
  /-- Eighth working word. -/
  h : UInt32
deriving DecidableEq

/-- The words before the first block. -/
def initial : Registers :=
  ⟨0x6A09E667, 0xBB67AE85, 0x3C6EF372, 0xA54FF53A, 0x510E527F, 0x9B05688C, 0x1F83D9AB, 0x5BE0CD19⟩

/-- The constants of the 64 rounds. -/
def roundConstants : List UInt32 :=
  [0x428A2F98, 0x71374491, 0xB5C0FBCF, 0xE9B5DBA5, 0x3956C25B, 0x59F111F1, 0x923F82A4, 0xAB1C5ED5,
   0xD807AA98, 0x12835B01, 0x243185BE, 0x550C7DC3, 0x72BE5D74, 0x80DEB1FE, 0x9BDC06A7, 0xC19BF174,
   0xE49B69C1, 0xEFBE4786, 0x0FC19DC6, 0x240CA1CC, 0x2DE92C6F, 0x4A7484AA, 0x5CB0A9DC, 0x76F988DA,
   0x983E5152, 0xA831C66D, 0xB00327C8, 0xBF597FC7, 0xC6E00BF3, 0xD5A79147, 0x06CA6351, 0x14292967,
   0x27B70A85, 0x2E1B2138, 0x4D2C6DFC, 0x53380D13, 0x650A7354, 0x766A0ABB, 0x81C2C92E, 0x92722C85,
   0xA2BFE8A1, 0xA81A664B, 0xC24B8B70, 0xC76C51A3, 0xD192E819, 0xD6990624, 0xF40E3585, 0x106AA070,
   0x19A4C116, 0x1E376C08, 0x2748774C, 0x34B0BCB5, 0x391C0CB3, 0x4ED8AA4A, 0x5B9CCA4F, 0x682E6FF3,
   0x748F82EE, 0x78A5636F, 0x84C87814, 0x8CC70208, 0x90BEFFFA, 0xA4506CEB, 0xBEF9A3F7, 0xC67178F2]

/-- Rotation towards the low end by an offset from 1 to 31. -/
def rotate (word : UInt32) (offset : Nat) : UInt32 :=
  (word >>> UInt32.ofNat offset) ||| (word <<< UInt32.ofNat (32 - offset))

/-- The next sixteen words of the message schedule: the oldest is dropped and one is computed. -/
def slide (window : Vector UInt32 16) : Vector UInt32 16 :=
  let w1 := window[1]
  let w14 := window[14]
  let s0 := rotate w1 7 ^^^ rotate w1 18 ^^^ (w1 >>> 3)
  let s1 := rotate w14 17 ^^^ rotate w14 19 ^^^ (w14 >>> 10)
  let new := window[0] + s0 + window[9] + s1
  Vector.ofFn fun i => if h : i.val + 1 < 16 then window[i.val + 1] else new

/-- One round on the working words, with its constant and message word. -/
def round (r : Registers) (constant word : UInt32) : Registers :=
  let s1 := rotate r.e 6 ^^^ rotate r.e 11 ^^^ rotate r.e 25
  let choice := (r.e &&& r.f) ^^^ (~~~r.e &&& r.g)
  let t1 := r.h + s1 + choice + constant + word
  let s0 := rotate r.a 2 ^^^ rotate r.a 13 ^^^ rotate r.a 22
  let majority := (r.a &&& r.b) ^^^ (r.a &&& r.c) ^^^ (r.b &&& r.c)
  ⟨t1 + (s0 + majority), r.a, r.b, r.c, r.d + t1, r.e, r.f, r.g⟩

/-- The word that four bytes denote, most significant byte first. -/
def wordOfBytes (b : Bytes) : UInt32 :=
  b.foldl (fun word d => word <<< 8 ||| d.toUInt32) 0

/-- The four bytes of a word, most significant byte first. -/
def wordBytes (word : UInt32) : Bytes :=
  [(word >>> 24).toUInt8, (word >>> 16).toUInt8, (word >>> 8).toUInt8, word.toUInt8]

/-- The working words after a block. -/
def compress (r : Registers) (block : Bytes) : Registers :=
  -- Each round uses the oldest word of the window, which starts as the block itself.
  let window : Vector UInt32 16 :=
    Vector.ofFn fun i => wordOfBytes ((block.drop (4 * i.val)).take 4)
  let s := (roundConstants.foldl (fun (s, w) k => (round s k w[0], slide w)) (r, window)).1
  ⟨r.a + s.a, r.b + s.b, r.c + s.c, r.d + s.d, r.e + s.e, r.f + s.f, r.g + s.g, r.h + s.h⟩

/-- The message with its padding, a whole number of 64-byte blocks. -/
def pad (message : Bytes) : Bytes :=
  message ++ 0x80 :: List.replicate ((119 - message.length % 64) % 64) 0 ++
    Bytes.ofNat 8 (8 * message.length)

/-- The 32-byte digest of a message. -/
def digest (message : Bytes) : Hash :=
  let r := (blocks 64 (pad message)).foldl compress initial
  ⟨wordBytes r.a ++ wordBytes r.b ++ wordBytes r.c ++ wordBytes r.d ++ wordBytes r.e ++
    wordBytes r.f ++ wordBytes r.g ++ wordBytes r.h, rfl⟩

end SecondFactor.Hash.Sha256
