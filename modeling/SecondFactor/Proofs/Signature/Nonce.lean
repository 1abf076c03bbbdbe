import SecondFactor.Signature.Nonce

/-!
# Evaluating Nonces

To draw a nonce takes some twenty blocks of SHA-256. A proof that has to evaluate this spends most
of its time on the message schedule, which moves along a vector. With the schedule as a list the
nonces are the same (`derive?_eq_deriveWith?`), and it takes a fraction of the time.
-/

namespace SecondFactor

/-! ## The schedule as a list -/

namespace Hash.Sha256

/-- The next words of the message schedule. -/
def slideList (window : List UInt32) : List UInt32 :=
  let w1 := window.getD 1 0
  let w14 := window.getD 14 0
  let s0 := rotate w1 7 ^^^ rotate w1 18 ^^^ (w1 >>> 3)
  let s1 := rotate w14 17 ^^^ rotate w14 19 ^^^ (w14 >>> 10)
  window.tail ++ [window.getD 0 0 + s0 + window.getD 9 0 + s1]

/-- The first words of a block. -/
def wordsList : (count : Nat) → (block : Bytes) → List UInt32
  | 0, _ => []
  | count + 1, block => wordOfBytes (block.take 4) :: wordsList count (block.drop 4)

/-- The working words after a block. -/
def compressList (r : Registers) (block : Bytes) : Registers :=
  let s := (roundConstants.foldl (fun (s, w) k => (round s k (w.getD 0 0), slideList w))
    (r, wordsList 16 block)).1
  ⟨r.a + s.a, r.b + s.b, r.c + s.c, r.d + s.d, r.e + s.e, r.f + s.f, r.g + s.g, r.h + s.h⟩

/-- The digest of a message, where `step` takes a block in. -/
def digestWith (step : Registers → Bytes → Registers) (message : Bytes) : Hash :=
  let r := (blocks 64 (pad message)).foldl step initial
  ⟨wordBytes r.a ++ wordBytes r.b ++ wordBytes r.c ++ wordBytes r.d ++ wordBytes r.e ++
    wordBytes r.f ++ wordBytes r.g ++ wordBytes r.h, rfl⟩

theorem toList_slide (window : Vector UInt32 16) :
    (slide window).toList = slideList window.toList := by
  have hlength : window.toList.tail.length = 15 := by simp
  apply List.ext_getElem
  · simp [slideList]
  · intro i hi hi'
    have hlt : i < 16 := by simpa using hi
    simp only [slide, slideList, Vector.getElem_toList, Vector.getElem_ofFn]
    -- The word comes from the next place, or it is the new one.
    by_cases hmoved : i + 1 < 16
    · rw [dif_pos hmoved, List.getElem_append_left (by omega), List.getElem_tail,
        Vector.getElem_toList]
    · obtain rfl : i = 15 := by omega
      rw [dif_neg hmoved, List.getElem_append_right (by omega)]
      simp [hlength]

theorem wordsList_eq_map (count : Nat) (block : Bytes) :
    wordsList count block =
      (List.range count).map fun i => wordOfBytes ((block.drop (4 * i)).take 4) := by
  induction count generalizing block with
  | zero => rfl
  | succ count ih =>
    rw [wordsList, ih, List.range_succ_eq_map, List.map_cons, List.map_map]
    simp [Nat.mul_succ, Nat.add_comm]

/-- Words of the schedule in a list lead to the same working words. -/
theorem compress_eq_compressList : compress = compressList := by
  funext r block
  have hwords : (Vector.ofFn fun i : Fin 16 =>
      wordOfBytes ((block.drop (4 * i.val)).take 4)).toList = wordsList 16 block := by
    rw [wordsList_eq_map]
    apply List.ext_getElem <;> simp
  -- Every round on the vector is one on its list.
  have hrounds (window : Vector UInt32 16) := @List.foldl_hom _ _ _
    (fun s : Registers × Vector UInt32 16 => (s.1, s.2.toList))
    (fun s k => (round s.1 k s.2[0], slide s.2))
    (fun s k => (round s.1 k (s.2.getD 0 0), slideList s.2))
    roundConstants (r, window) fun s k => by simp [toList_slide]
  simp only [compress, compressList, ← hwords, hrounds]

theorem digest_eq_digestWith : digest = digestWith compressList := by
  rw [← compress_eq_compressList]
  rfl

end Hash.Sha256

/-! ## The generator on top of it -/

open Curve Hash

/-- The code of a message under a key, made with some digests. -/
def Hash.Hmac.digestWith (digest : Bytes → Hash) (key message : Bytes) : Hash :=
  let block := keyBlock key
  let inner := digest (block.map (· ^^^ 0x36) ++ message)
  digest (block.map (· ^^^ 0x5C) ++ inner.bytes)

namespace Signature.Nonce

namespace Generator

/-- Draws the next value with some keyed hash. -/
def nextWith (mac : Bytes → Bytes → Hash) (g : Generator) : Generator :=
  { g with value := (mac g.key g.value).bytes }

/-- Mixes a marker byte and more data into the key with some keyed hash. -/
def mixWith (mac : Bytes → Bytes → Hash) (g : Generator) (marker : UInt8) (data : Bytes) :
    Generator :=
  nextWith mac { g with key := (mac g.key (g.value ++ marker :: data)).bytes }

/-- The first value drawn that is a scalar other than zero, with some keyed hash. -/
def drawWith? (mac : Bytes → Bytes → Hash) : (attempts : Nat) → Generator → Option Scalar
  | 0, _ => none
  | attempts + 1, g =>
    let g := g.nextWith mac
    let n := Bytes.toNat g.value
    if h : 0 < n ∧ n < order then some ⟨n, h.2⟩
    else drawWith? mac attempts (g.mixWith mac 0 [])

theorem draw?_eq_drawWith? : draw? = drawWith? Hmac.digest := by
  funext attempts g
  induction attempts generalizing g with
  | zero => rfl
  | succ attempts ih =>
    unfold draw? drawWith?
    simp only [ih]
    rfl

end Generator

/-- The nonce for signing a hash, drawn with some keyed hash. -/
def deriveWith? (mac : Bytes → Bytes → Hash) (secret : Scalar) (hash : FixedBytes 32) :
    Option Scalar :=
  let data := Bytes.ofNat 32 secret.val ++ hash.bytes
  let blank : Generator := ⟨List.replicate 32 0, List.replicate 32 1⟩
  ((blank.mixWith mac 0 data).mixWith mac 1 data).drawWith? mac attempts

/-- Nonces may be evaluated with the schedule as a list. -/
theorem derive?_eq_deriveWith? :
    derive? = deriveWith? (Hmac.digestWith (Sha256.digestWith Sha256.compressList)) := by
  rw [← Sha256.digest_eq_digestWith]
  show _ = deriveWith? Hmac.digest
  unfold deriveWith?
  rw [← Generator.draw?_eq_drawWith?]
  rfl

end Signature.Nonce

end SecondFactor
