import SecondFactor.Config.Environment
import SecondFactor.Proofs.Hex
import SecondFactor.Proofs.Signature.Scalar

/-!
# Reading Secret Keys

Which bytes and which texts are read as a secret key. A key is documented as a scalar of 32 bytes
(`IsFull`), in hexadecimal behind at most one marker `0x` (`IsFullText`), and what is documented is
read. But bytes are read from 24 on, with zeros taken to stand before them, and any number of
markers is dropped, so a key that lost up to eight bytes is read as another key. The main statements
are:

- `accepted_widths`: what is read, and that it goes beyond what is documented just by short bytes
  and by repeated markers;
- `short_key_accepted`: a validator's key without its last byte is taken for another key.
-/

namespace SecondFactor.SecretKey

open Curve

variable {b digits digits' : Bytes} {key : SecretKey} {markers markers' : Nat} {text : String}

/-! ## Bytes -/

/-- The bytes of a scalar other than zero, in full width. -/
structure IsFull (b : Bytes) : Prop where
  /-- There are as many bytes as the group order has. -/
  length_eq : b.length = 32
  /-- The scalar is not zero. -/
  pos : 1 ≤ Bytes.toNat b
  /-- The scalar is below the group order. -/
  lt : Bytes.toNat b < order

/-- A key is read from the 24 to 32 bytes of its number. -/
theorem ofBytes_eq_ok_iff :
    ofBytes b = .ok key ↔ (24 ≤ b.length ∧ b.length ≤ 32) ∧ Bytes.toNat b = key.scalar.val := by
  unfold ofBytes
  constructor
  · intro h
    split at h
    · next hwidth =>
      dsimp only at h
      split at h
      · split at h
        · cases h
          exact ⟨hwidth, rfl⟩
        · cases h
      · cases h
    · cases h
  · rintro ⟨hwidth, hnumber⟩
    have hlt : Bytes.toNat b < order := hnumber ▸ key.scalar.isLt
    have hscalar : (⟨Bytes.toNat b, hlt⟩ : Scalar) = key.scalar := Fin.ext hnumber
    simp only [if_pos hwidth, dif_pos hlt, hscalar, dif_pos key.scalar_ne_zero]

/-- Bytes are read as some key if they are 24 to 32 and denote a scalar other than zero. -/
theorem exists_ofBytes_iff : (∃ key, ofBytes b = .ok key) ↔
    (24 ≤ b.length ∧ b.length ≤ 32) ∧ 1 ≤ Bytes.toNat b ∧ Bytes.toNat b < order := by
  simp only [ofBytes_eq_ok_iff, exists_and_left]
  refine and_congr_right fun _ => ⟨?_, ?_⟩
  · rintro ⟨key, hnumber⟩
    rw [hnumber]
    exact ⟨Nat.pos_of_ne_zero fun hzero => key.scalar_ne_zero (Fin.ext hzero), key.scalar.isLt⟩
  · rintro ⟨hpos, hlt⟩
    refine ⟨⟨⟨Bytes.toNat b, hlt⟩, fun hzero => ?_⟩, rfl⟩
    exact Nat.ne_of_gt hpos (congrArg Fin.val hzero)

/-- Bytes in full width are read. -/
theorem IsFull.exists_ofBytes (h : IsFull b) : ∃ key, ofBytes b = .ok key :=
  exists_ofBytes_iff.2 ⟨by rw [h.length_eq]; decide, h.pos, h.lt⟩

/-- Fewer bytes than those of the group order denote a number below it. -/
theorem toNat_lt_of_short (h : b.length < 32) : Bytes.toNat b < order := by
  have horder : 256 ^ 31 < order := by decide +kernel
  have hpow : 256 ^ b.length ≤ 256 ^ 31 := Nat.pow_le_pow_right (by decide) (by omega)
  have hlt := Bytes.toNat_lt b
  omega

/-! ## Texts -/

/-- Digits behind a number of markers `0x`. -/
def marked (markers : Nat) (digits : Bytes) : Bytes :=
  (List.replicate markers [0x30, 0x78]).flatten ++ digits

/-- The 64 digits of a scalar other than zero, behind at most one marker. -/
def IsFullText (text : String) : Prop :=
  ∃ markers digits b, markers ≤ 1 ∧ Text.utf8 text = marked markers digits ∧
    Hex.Denotes digits b ∧ IsFull b

theorem marked_succ (markers : Nat) (digits : Bytes) :
    marked (markers + 1) digits = 0x30 :: 0x78 :: marked markers digits := by
  simp [marked, List.replicate_succ]

theorem length_marked (markers : Nat) (digits : Bytes) :
    (marked markers digits).length = 2 * markers + digits.length := by
  induction markers with
  | zero => exact (Nat.zero_add _).symm
  | succ markers ih =>
    rw [marked_succ, List.length_cons, List.length_cons, ih]
    omega

/-- A text consists of its markers and the rest. -/
theorem exists_marked (b : Bytes) : ∃ markers, b = marked markers (dropMarkers b) := by
  fun_induction dropMarkers b with
  | case1 rest ih =>
    obtain ⟨markers, hrest⟩ := ih
    exact ⟨markers + 1, by rw [marked_succ, ← hrest]⟩
  | case2 digits => exact ⟨0, rfl⟩

/-- The letter of the marker is no digit, so all markers before digits are dropped. -/
theorem dropMarkers_marked (h : Hex.Denotes digits b) :
    dropMarkers (marked markers digits) = digits := by
  induction markers with
  | zero =>
    obtain ⟨-, hdigits⟩ := Hex.exists_denotes_iff.1 ⟨b, h⟩
    change dropMarkers digits = digits
    unfold dropMarkers
    split
    · have hletter := hdigits 0x78 (by simp)
      exact absurd hletter (by unfold Hex.IsDigit; decide)
    · rfl
  | succ markers ih =>
    rw [marked_succ, dropMarkers, ih]

/-- A text is read as the key of the bytes that its digits denote, whatever the number of markers
before them. -/
theorem ofHex_eq_ok_iff : ofHex text = .ok key ↔
    ∃ markers digits b, Text.utf8 text = marked markers digits ∧ Hex.Denotes digits b ∧
      ofBytes b = .ok key := by
  have hread : ofHex text = .ok key ↔
      ∃ b, Hex.Denotes (dropMarkers (Text.utf8 text)) b ∧ ofBytes b = .ok key := by
    simp only [← Hex.decode?_eq_some_iff, ofHex]
    cases Hex.decode? (dropMarkers (Text.utf8 text)) <;> simp
  rw [hread]
  constructor
  · rintro ⟨b, hdigits, hkey⟩
    obtain ⟨markers, htext⟩ := exists_marked (Text.utf8 text)
    exact ⟨markers, _, b, htext, hdigits, hkey⟩
  · rintro ⟨markers, digits, b, htext, hdigits, hkey⟩
    rw [htext, dropMarkers_marked hdigits]
    exact ⟨b, hdigits, hkey⟩

/-- A text has its markers and its digits in one way only. -/
theorem marked_injective {b' : Bytes} (h : Hex.Denotes digits b) (h' : Hex.Denotes digits' b')
    (heq : marked markers digits = marked markers' digits') : markers = markers' ∧ b = b' := by
  have hdropped : dropMarkers (marked markers digits) = digits := dropMarkers_marked h
  rw [heq, dropMarkers_marked h'] at hdropped
  subst hdropped
  have hlength := congrArg List.length heq
  rw [length_marked, length_marked] at hlength
  have hbytes := Hex.decode?_eq_some_iff.2 h
  rw [Hex.decode?_eq_some_iff.2 h'] at hbytes
  cases hbytes
  exact ⟨by omega, rfl⟩

/-- A text in full width is read. -/
theorem IsFullText.exists_ofHex (h : IsFullText text) : ∃ key, ofHex text = .ok key := by
  obtain ⟨markers, digits, b, -, htext, hdigits, hfull⟩ := h
  obtain ⟨key, hkey⟩ := hfull.exists_ofBytes
  exact ⟨key, ofHex_eq_ok_iff.2 ⟨markers, digits, b, htext, hdigits, hkey⟩⟩

/-- A text in full width has 64 characters, or 66 with the marker. -/
theorem IsFullText.length_utf8 (h : IsFullText text) :
    (Text.utf8 text).length = 64 ∨ (Text.utf8 text).length = 66 := by
  obtain ⟨markers, digits, b, hone, htext, hdigits, hfull⟩ := h
  rw [htext, length_marked, hdigits.length_eq, hfull.length_eq]
  omega

/-- The secret key of a validator is read from its variable, without the blanks around it. -/
theorem validatorKey_eq_ok_iff {env : Environment} : env.validatorKey = .ok key ↔
    ∃ value, env .validatorKey = some value ∧ ofHex (Text.trim value) = .ok key := by
  unfold Environment.validatorKey
  cases env .validatorKey with
  | none => simp
  | some value =>
    simp only [Option.some.injEq, exists_eq_left']
    cases ofHex (Text.trim value) <;> simp

/-! ## What is read beyond what is documented -/

/-- Bytes are read just as documented unless they are too few and denote a number other than zero. -/
theorem exists_ofBytes_iff_isFull_iff : ((∃ key, ofBytes b = .ok key) ↔ IsFull b) ↔
    ¬((24 ≤ b.length ∧ b.length < 32) ∧ 1 ≤ Bytes.toNat b) := by
  constructor
  · rintro h ⟨⟨hlow, hshort⟩, hpos⟩
    have hread : ∃ key, ofBytes b = .ok key :=
      exists_ofBytes_iff.2 ⟨⟨hlow, by omega⟩, hpos, toNat_lt_of_short hshort⟩
    exact Nat.ne_of_lt hshort (h.1 hread).length_eq
  · refine fun h => ⟨fun hread => ?_, IsFull.exists_ofBytes⟩
    obtain ⟨⟨hlow, hhigh⟩, hpos, hlt⟩ := exists_ofBytes_iff.1 hread
    exact ⟨by omega, hpos, hlt⟩

/-- Texts are read just as documented unless more than one marker, or too few bytes, make up one
that is read. -/
theorem exists_ofHex_iff_isFullText_iff : ((∃ key, ofHex text = .ok key) ↔ IsFullText text) ↔
    ¬∃ markers digits b key, Text.utf8 text = marked markers digits ∧ Hex.Denotes digits b ∧
      ofBytes b = .ok key ∧ (1 < markers ∨ b.length < 32) := by
  constructor
  · rintro h ⟨markers, digits, b, key, htext, hdigits, hkey, hbeyond⟩
    -- The text would be documented as well, and it has its markers and digits in one way only.
    obtain ⟨markers', digits', b', hone, htext', hdigits', hfull⟩ :=
      h.1 ⟨key, ofHex_eq_ok_iff.2 ⟨markers, digits, b, htext, hdigits, hkey⟩⟩
    obtain ⟨rfl, rfl⟩ := marked_injective hdigits hdigits' (htext ▸ htext')
    have hwidth := hfull.length_eq
    omega
  · refine fun h => ⟨?_, IsFullText.exists_ofHex⟩
    rintro ⟨key, hread⟩
    obtain ⟨markers, digits, b, htext, hdigits, hkey⟩ := ofHex_eq_ok_iff.1 hread
    have hbeyond : ¬(1 < markers ∨ b.length < 32) := fun hbeyond =>
      h ⟨markers, digits, b, key, htext, hdigits, hkey, hbeyond⟩
    obtain ⟨⟨-, hhigh⟩, hpos, hlt⟩ := exists_ofBytes_iff.1 ⟨key, hkey⟩
    exact ⟨markers, digits, b, by omega, htext, hdigits, by omega, hpos, hlt⟩

/-- A key is read from the 24 to 32 bytes of its number, and these from digits behind any number of
markers, in particular from the variable of a validator. So bytes are accepted just as documented
unless they are fewer than 32 and denote a number other than zero, and texts are unless such bytes,
or more than one marker, make up an accepted one. -/
theorem accepted_widths (b : Bytes) (text : String) (env : Environment) :
    (∀ key, ofBytes b = .ok key ↔
      (24 ≤ b.length ∧ b.length ≤ 32) ∧ Bytes.toNat b = key.scalar.val) ∧
    (((∃ key, ofBytes b = .ok key) ↔ IsFull b) ↔
      ¬((24 ≤ b.length ∧ b.length < 32) ∧ 1 ≤ Bytes.toNat b)) ∧
    (∀ key, ofHex text = .ok key ↔
      ∃ markers digits bytes, Text.utf8 text = marked markers digits ∧ Hex.Denotes digits bytes ∧
        ofBytes bytes = .ok key) ∧
    (((∃ key, ofHex text = .ok key) ↔ IsFullText text) ↔
      ¬∃ markers digits bytes key, Text.utf8 text = marked markers digits ∧
        Hex.Denotes digits bytes ∧ ofBytes bytes = .ok key ∧
          (1 < markers ∨ bytes.length < 32)) ∧
    ∀ key, env.validatorKey = .ok key ↔
      ∃ value, env .validatorKey = some value ∧ ofHex (Text.trim value) = .ok key :=
  ⟨fun _ => ofBytes_eq_ok_iff, exists_ofBytes_iff_isFull_iff, fun _ => ofHex_eq_ok_iff,
    exists_ofHex_iff_isFullText_iff, fun _ => validatorKey_eq_ok_iff⟩

/-- The environment of a validator whose key is given as a text. -/
def keyEnvironment (text : String) : Environment
  | .validatorKey => some text
  | _ => none

/-- The key of 32 bytes that are all seven. -/
def sevensKey : SecretKey :=
  ⟨⟨0x0707070707070707070707070707070707070707070707070707070707070707, by decide⟩, by decide⟩

/-- The key of 31 bytes that are all seven. -/
def shortSevensKey : SecretKey :=
  ⟨⟨0x07070707070707070707070707070707070707070707070707070707070707, by decide⟩, by decide⟩

/-- A validator's key of 32 bytes is taken for another key when its last byte is lost; 24 bytes are
taken for a key, and so are 64 digits behind two markers. -/
theorem short_key_accepted :
    (∃ key other,
      (keyEnvironment
        "0707070707070707070707070707070707070707070707070707070707070707").validatorKey =
          .ok key ∧
      (keyEnvironment
        "07070707070707070707070707070707070707070707070707070707070707").validatorKey =
          .ok other ∧
      other ≠ key) ∧
    (∃ key, ofBytes (List.replicate 24 0x07) = .ok key) ∧
    (∃ key, ofHex "0x0x0707070707070707070707070707070707070707070707070707070707070707" =
      .ok key) ∧
    ¬(∀ text, (∃ key, ofHex text = .ok key) ↔ IsFullText text) ∧
    ¬∀ b, (∃ key, ofBytes b = .ok key) ↔ IsFull b := by
  have hshort : ∃ key, ofBytes (List.replicate 24 0x07) = .ok key :=
    exists_ofBytes_iff.2 (by decide +kernel)
  have hmarked : ∃ key,
      ofHex "0x0x0707070707070707070707070707070707070707070707070707070707070707" = .ok key :=
    ⟨sevensKey, by decide +kernel⟩
  refine ⟨⟨sevensKey, shortSevensKey, ?_, ?_, ?_⟩, hshort, hmarked, fun h => ?_, fun h => ?_⟩
  · decide +kernel
  · decide +kernel
  · decide
  · exact absurd ((h _).1 hmarked).length_utf8 (by decide +kernel)
  · exact absurd ((h _).1 hshort).length_eq (by decide)

end SecondFactor.SecretKey
