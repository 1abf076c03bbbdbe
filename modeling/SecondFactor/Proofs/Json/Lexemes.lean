import Mathlib.Data.List.Nodup
import Mathlib.Data.List.TakeWhile
import SecondFactor.Proofs.Json.Grammar

/-!
# Reading the Parts of Values

The readers of strings, numbers and words split a document exactly into a spelling and what follows
it. For a string the closing quotation mark says where it ends (`string?_eq_some_iff`); a number is
taken as far as it goes, so one that has been spelled is split off whole only in front of a
character that does not go on with it (`EndsNumber`).
-/

namespace SecondFactor.Json

/-! ## Blanks -/

/-- No blank is skipped in front of another character. -/
theorem skipBlanks_cons {c : UInt8} (h : isBlank c = false) (rest : Bytes) :
    skipBlanks (c :: rest) = c :: rest := by
  rw [skipBlanks, List.dropWhile_cons, h]
  rfl

/-- Blanks are skipped in front of anything. -/
theorem skipBlanks_append {gap : Bytes} (h : Blanks gap) (rest : Bytes) :
    skipBlanks (gap ++ rest) = skipBlanks rest :=
  List.dropWhile_append_of_pos h

theorem skipBlanks_eq_nil_iff {b : Bytes} : skipBlanks b = [] ↔ Blanks b :=
  List.dropWhile_eq_nil_iff

/-- The first character that is left stands behind blanks. -/
theorem exists_gap {b rest : Bytes} {c : UInt8} (h : skipBlanks b = c :: rest) :
    ∃ gap, Blanks gap ∧ b = gap ++ c :: rest := by
  refine ⟨b.takeWhile isBlank, fun d hd => List.mem_takeWhile_imp hd, ?_⟩
  rw [← h]
  exact List.takeWhile_append_dropWhile.symm

/-! ## Strings -/

/-- Putting parts together ends with the last one. -/
theorem joinPieces_cons (piece : Piece) (done : List Piece) :
    joinPieces (piece :: done) = joinPieces done ++ piece.bytes := by
  -- The fold puts each part in front, so what it starts with ends up behind all of them.
  have hfold : ∀ (done : List Piece) (tail : Bytes),
      done.foldl (fun b piece => piece.bytes ++ b) tail =
        done.foldl (fun b piece => piece.bytes ++ b) [] ++ tail := by
    intro done
    induction done with
    | nil => intro tail; rfl
    | cons head rest ih =>
      intro tail
      rw [List.foldl_cons, List.foldl_cons, ih, ih (head.bytes ++ [])]
      simp
  rw [joinPieces, List.foldl_cons, hfold, List.append_nil]
  rfl

/-- Takes a part of a string into account that has been read. -/
def push (done : List Piece) : Piece → List Piece
  | .raw b => .raw b :: done
  | .code u => pushUnit u done

/-- A spelling of a part is read as the part. -/
theorem scan_piece {piece : Piece} {text : Bytes} (h : SpellsPiece piece text) (rest : Bytes)
    (done : List Piece) : scan (text ++ rest) done = scan rest (push done piece) := by
  have hne : byte '\\' ≠ byte '"' := by decide
  cases h with
  | raw hquote hbackslash hcontrol =>
    rw [List.singleton_append, scan.eq_def]
    simp only [if_neg hquote, if_neg hbackslash, if_neg hcontrol]
    rfl
  | @short e b h =>
    -- The letter of a short escape is not the one of a long escape.
    have hu : e ≠ byte 'u' := by
      rintro rfl
      cases h
    rw [List.cons_append, List.singleton_append, scan.eq_def]
    simp only [if_neg hne, if_pos, if_neg hu, h]
    rfl
  | long h =>
    rw [scan.eq_def]
    simp only [List.cons_append, List.nil_append, if_neg hne, if_pos, h]
    rfl

/-- What is read up to the closing quotation mark are spellings of parts. -/
theorem exists_parts_of_scan {b rest : Bytes} {done done' : List Piece}
    (h : scan b done = some (done', rest)) :
    ∃ parts : List (Piece × Bytes), (∀ part ∈ parts, SpellsPiece part.1 part.2) ∧
      b = parts.flatMap Prod.snd ++ byte '"' :: rest ∧
      done' = (parts.map Prod.fst).foldl push done := by
  -- The recursion takes one part off the front and returns the parts behind it.
  fun_induction scan b done with
  | case1 => cases h
  | case2 rest' done =>
    cases h
    exact ⟨[], by simp, rfl, rfl⟩
  | case3 => cases h
  | case4 done a b c d rest' u hunit hne ih =>
    obtain ⟨parts, hparts, rfl, rfl⟩ := ih h
    refine ⟨(.code u, [byte '\\', byte 'u', a, b, c, d]) :: parts, ?_, rfl, rfl⟩
    exact List.forall_mem_cons.2 ⟨.long hunit, hparts⟩
  | case5 => cases h
  | case6 => cases h
  | case7 done e rest' hne b hshort hne' ih =>
    obtain ⟨parts, hparts, rfl, rfl⟩ := ih h
    refine ⟨(.raw b, [byte '\\', e]) :: parts, ?_, rfl, rfl⟩
    exact List.forall_mem_cons.2 ⟨.short hshort, hparts⟩
  | case8 => cases h
  | case9 => cases h
  | case10 c rest' done hquote hbackslash hcontrol ih =>
    obtain ⟨parts, hparts, rfl, rfl⟩ := ih h
    refine ⟨(.raw c, [c]) :: parts, ?_, rfl, rfl⟩
    exact List.forall_mem_cons.2 ⟨.raw hquote hbackslash hcontrol, hparts⟩

/-- Spellings of parts are read up to the closing quotation mark. -/
theorem scan_parts {parts : List (Piece × Bytes)}
    (h : ∀ part ∈ parts, SpellsPiece part.1 part.2) (rest : Bytes) (done : List Piece) :
    scan (parts.flatMap Prod.snd ++ byte '"' :: rest) done =
      some ((parts.map Prod.fst).foldl push done, rest) := by
  induction parts generalizing done with
  | nil =>
    rw [List.flatMap_nil, List.nil_append, scan.eq_def]
    rfl
  | cons part parts ih =>
    obtain ⟨hpart, hparts⟩ := List.forall_mem_cons.1 h
    rw [List.flatMap_cons, List.append_assoc, scan_piece hpart, ih hparts]
    rfl

/-- The part read last and the next one are not the halves of one code point. -/
def Apart : List Piece → List Piece → Prop
  | .code h :: _, .code u :: _ => ¬IsPair h u
  | _, _ => True

/-- A unit joins the first half before it exactly if it is the second half. -/
theorem push_cons_code (u h : Nat) (done : List Piece) :
    push (.code h :: done) (.code u) =
      if IsPair h u then .code (0x10000 + (h - 0xD800) * 1024 + (u - 0xDC00)) :: done
      else .code u :: .code h :: done := by
  refine if_congr ?_ rfl rfl
  rw [Bool.and_eq_true, IsPair]

/-- A unit that is no second half of the one before starts a part of its own. -/
theorem push_code {u : Nat} {done rest : List Piece} (h : Apart done (.code u :: rest)) :
    push done (.code u) = .code u :: done := by
  cases done with
  | nil => rfl
  | cons piece done =>
    cases piece with
    | raw b => rfl
    | code h' => rw [push_cons_code, if_neg h]

/-- What two halves make up is no first half itself. -/
theorem apart_pair (h u : Nat) (done rest : List Piece) :
    Apart (.code (0x10000 + (h - 0xD800) * 1024 + (u - 0xDC00)) :: done) rest := by
  cases rest with
  | nil => trivial
  | cons piece rest =>
    cases piece with
    | raw b => trivial
    | code u' =>
      rintro ⟨hhigh, -⟩
      simp only [isHighSurrogate, Bool.and_eq_true, decide_eq_true_eq] at hhigh
      omega

/-- The parts that have been read are put together as the string says. -/
theorem joinPieces_foldl_push (pieces done : List Piece) (h : Apart done pieces) :
    joinPieces (pieces.foldl push done) = joinPieces done ++ content pieces := by
  fun_induction content pieces generalizing done with
  | case1 => exact (List.append_nil _).symm
  | case2 b rest ih =>
    rw [List.foldl_cons, push, ih (.raw b :: done) trivial, joinPieces_cons, List.append_assoc]
    rfl
  | case3 u =>
    rw [List.foldl_cons, push_code h, List.foldl_nil, joinPieces_cons]
    rfl
  | case4 u b rest ih =>
    rw [List.foldl_cons, push_code h, ih (.code u :: done) trivial, joinPieces_cons,
      List.append_assoc]
    rfl
  | case5 high low rest hpair ih =>
    rw [List.foldl_cons, push_code h, List.foldl_cons, push_cons_code, if_pos hpair,
      ih _ (apart_pair high low done rest), joinPieces_cons, List.append_assoc]
    rfl
  | case6 high low rest hpair ih =>
    rw [List.foldl_cons, push_code h, ih (.code high :: done) hpair, joinPieces_cons,
      List.append_assoc]
    rfl

/-- A string is read from behind its opening quotation mark to the closing one. -/
theorem string?_eq_some_iff {b rest name : Bytes} :
    string? b = some (name, rest) ↔
      ∃ text, SpellsString name text ∧ byte '"' :: b = text ++ rest := by
  unfold string?
  constructor
  · intro h
    split at h
    · next done rest' hscan =>
      cases h
      obtain ⟨parts, hparts, rfl, rfl⟩ := exists_parts_of_scan hscan
      refine ⟨byte '"' :: parts.flatMap Prod.snd ++ [byte '"'], ?_, by simp⟩
      rw [joinPieces_foldl_push _ [] trivial]
      exact .intro parts hparts
    · cases h
  · rintro ⟨text, ⟨parts, hparts⟩, hb⟩
    obtain rfl : b = parts.flatMap Prod.snd ++ byte '"' :: rest := by simpa using hb
    rw [scan_parts hparts]
    dsimp only
    rw [joinPieces_foldl_push _ [] trivial]
    rfl

/-- A string is read up to its closing quotation mark. -/
theorem SpellsString.exists_cons {name text : Bytes} (h : SpellsString name text) :
    ∃ tail, text = byte '"' :: tail ∧ ∀ rest, string? (tail ++ rest) = some (name, rest) := by
  have hread {tail rest : Bytes} (htext : text = byte '"' :: tail) :
      string? (tail ++ rest) = some (name, rest) :=
    string?_eq_some_iff.2 ⟨text, h, by rw [htext, List.cons_append]⟩
  obtain ⟨parts, -⟩ := h
  exact ⟨_, rfl, fun rest => hread rfl⟩

/-- A name starts with a quotation mark behind blanks. -/
theorem SpellsName.exists_skipBlanks {name text : Bytes} (h : SpellsName name text) (rest : Bytes) :
    ∃ tail, skipBlanks (text ++ rest) = byte '"' :: tail := by
  obtain @⟨before, text, after, hbefore, htext, -⟩ := h
  obtain ⟨tail, rfl, -⟩ := htext.exists_cons
  refine ⟨tail ++ (after ++ rest), ?_⟩
  rw [List.append_assoc, List.append_assoc, skipBlanks_append hbefore]
  exact skipBlanks_cons (by decide) _

/-! ## Numbers -/

/-- What follows is no digit. -/
def NoDigit (rest : Bytes) : Prop :=
  ∀ c ∈ rest.head?, isDigit c = false

/-- What follows does not go on with a number. -/
def EndsNumber (rest : Bytes) : Prop :=
  ∀ c ∈ rest.head?, isDigit c = false ∧ c ≠ byte '.' ∧ c ≠ byte 'e' ∧ c ≠ byte 'E'

theorem endsNumber_nil : EndsNumber [] := by
  rintro c ⟨⟩

theorem EndsNumber.noDigit {rest : Bytes} (h : EndsNumber rest) : NoDigit rest :=
  fun c hc => (h c hc).1

/-- Blanks end a number, and so does what ends it behind them. -/
theorem EndsNumber.blanks_append {gap rest : Bytes} (hgap : Blanks gap) (h : EndsNumber rest) :
    EndsNumber (gap ++ rest) := by
  cases gap with
  | nil => exact h
  | cons c gap =>
    rintro d ⟨⟩
    have hblank := hgap c List.mem_cons_self
    simp only [isBlank, Bool.or_eq_true, beq_iff_eq] at hblank
    rcases hblank with ((rfl | rfl) | rfl) | rfl <;> decide

/-- The character that ends an element or a member ends a number. -/
theorem endsNumber_cons {c : UInt8} (h : c = byte ',' ∨ c = byte ']' ∨ c = byte '\x7d')
    (rest : Bytes) : EndsNumber (c :: rest) := by
  rintro d ⟨⟩
  rcases h with rfl | rfl | rfl <;> decide

/-- A character that starts a number. -/
def StartsNumber (c : UInt8) : Prop :=
  isDigit c = true ∨ c = byte '-'

theorem IsNumber.exists_cons {literal : Bytes} (h : IsNumber literal) :
    ∃ c tail, literal = c :: tail ∧ StartsNumber c := by
  obtain @⟨sign, whole, fraction, exponent, hsign, hwhole, -, -⟩ := h
  rcases hsign with rfl | rfl
  · cases whole with
    | nil => cases hwhole.isWhole_eq
    | cons d whole => exact ⟨d, _, rfl, .inl (hwhole.all_isDigit d List.mem_cons_self)⟩
  · exact ⟨byte '-', _, rfl, .inr rfl⟩

/-- A number starts with none of the characters that the reader tells other values by. -/
theorem StartsNumber.ne {c d : UInt8} (h : StartsNumber c) (hdigit : isDigit d = false)
    (hminus : d ≠ byte '-') : c ≠ d := by
  rintro rfl
  rcases h with h | h
  · rw [hdigit] at h
    cases h
  · exact hminus h

theorem StartsNumber.isBlank {c : UInt8} (h : StartsNumber c) : isBlank c = false := by
  rw [Json.isBlank]
  simp [h.ne (d := 0x20) (by decide) (by decide), h.ne (d := 0x09) (by decide) (by decide),
    h.ne (d := 0x0A) (by decide) (by decide), h.ne (d := 0x0D) (by decide) (by decide)]

/-- Digits are taken up to the first other character. -/
theorem takeWhile_digits {digits rest : Bytes} (h : ∀ d ∈ digits, isDigit d = true)
    (hrest : NoDigit rest) :
    (digits ++ rest).takeWhile isDigit = digits ∧ (digits ++ rest).dropWhile isDigit = rest := by
  rw [List.takeWhile_append_of_pos h, List.dropWhile_append_of_pos h]
  cases rest with
  | nil => simp
  | cons c rest => simp [hrest c rfl]

/-- A fraction is split off as one. -/
theorem fraction?_sound {b fraction rest : Bytes} (h : fraction? b = some (fraction, rest)) :
    b = fraction ++ rest ∧ IsFraction fraction := by
  unfold fraction? at h
  split at h
  · cases h
    exact ⟨rfl, .absent⟩
  · split at h
    · dsimp only at h
      split at h
      · cases h
      · next c digits hpoint hne =>
        cases h
        subst hpoint
        refine ⟨?_, .present ⟨hne, fun d hd => List.mem_takeWhile_imp hd⟩⟩
        rw [List.cons_append, List.takeWhile_append_dropWhile]
    · cases h
      exact ⟨rfl, .absent⟩

theorem fraction?_append {fraction rest : Bytes} (h : IsFraction fraction)
    (hrest : ∀ c ∈ rest.head?, isDigit c = false ∧ c ≠ byte '.') :
    fraction? (fraction ++ rest) = some (fraction, rest) := by
  cases h with
  | absent =>
    cases rest with
    | nil => rfl
    | cons c rest => rw [List.nil_append, fraction?, if_neg (hrest c rfl).2]
  | present h =>
    obtain ⟨htake, hdrop⟩ := takeWhile_digits h.all_isDigit fun c hc => (hrest c hc).1
    rw [List.cons_append, fraction?, if_pos rfl]
    dsimp only
    rw [htake, hdrop, if_neg h.ne_nil]

/-- The sign of an exponent is split off. -/
theorem exponentSign_sound (b : Bytes) :
    b = (exponentSign b).1 ++ (exponentSign b).2 ∧
      ((exponentSign b).1 = [] ∨ (exponentSign b).1 = [byte '+'] ∨
        (exponentSign b).1 = [byte '-']) := by
  unfold exponentSign
  split
  · exact ⟨rfl, .inl rfl⟩
  split
  · next h => exact ⟨rfl, .inr (by simpa using h)⟩
  · exact ⟨rfl, .inl rfl⟩

/-- An exponent is split off as one. -/
theorem exponent?_sound {b exponent rest : Bytes} (h : exponent? b = some (exponent, rest)) :
    b = exponent ++ rest ∧ IsExponent exponent := by
  unfold exponent? at h
  split at h
  · cases h
    exact ⟨rfl, .absent⟩
  · next c tail =>
    split at h
    · next hletter =>
      dsimp only at h
      have hsign := exponentSign_sound tail
      split at h
      · cases h
      · next hne =>
        cases h
        refine ⟨?_, .present hletter hsign.2 ⟨hne, fun d hd => List.mem_takeWhile_imp hd⟩⟩
        rw [List.append_assoc, List.takeWhile_append_dropWhile, List.cons_append, ← hsign.1]
    · cases h
      exact ⟨rfl, .absent⟩

/-- Behind its sign an exponent has a digit, which is no sign. -/
theorem exponentSign_append {sign digits : Bytes}
    (hsign : sign = [] ∨ sign = [byte '+'] ∨ sign = [byte '-']) (h : Digits digits) (rest : Bytes) :
    exponentSign (sign ++ (digits ++ rest)) = (sign, digits ++ rest) := by
  rcases hsign with rfl | rfl | rfl
  · cases digits with
    | nil => exact absurd rfl h.ne_nil
    | cons d digits =>
      have hd : ¬(d = byte '+' ∨ d = byte '-') := by
        have hdigit := h.all_isDigit d List.mem_cons_self
        rintro (rfl | rfl) <;> exact absurd hdigit (by decide)
      rw [List.nil_append, List.cons_append, exponentSign, if_neg hd]
  · rfl
  · rfl

theorem exponent?_append {exponent rest : Bytes} (h : IsExponent exponent)
    (hrest : EndsNumber rest) : exponent? (exponent ++ rest) = some (exponent, rest) := by
  cases h with
  | absent =>
    cases rest with
    | nil => rfl
    | cons c rest =>
      obtain ⟨-, -, he, hE⟩ := hrest c rfl
      rw [List.nil_append, exponent?, if_neg (not_or.2 ⟨he, hE⟩)]
  | present hletter hsign h =>
    obtain ⟨htake, hdrop⟩ := takeWhile_digits h.all_isDigit hrest.noDigit
    rw [List.append_assoc, List.cons_append, exponent?, if_pos hletter,
      exponentSign_append hsign h]
    dsimp only
    rw [htake, hdrop, if_neg h.ne_nil]

/-- A fraction or what follows it starts with no digit. -/
theorem noDigit_append {fraction exponent rest : Bytes} (hfraction : IsFraction fraction)
    (hexponent : IsExponent exponent) (hrest : EndsNumber rest) :
    NoDigit (fraction ++ (exponent ++ rest)) ∧
      ∀ c ∈ (exponent ++ rest).head?, isDigit c = false ∧ c ≠ byte '.' := by
  have hbehind : ∀ c ∈ (exponent ++ rest).head?, isDigit c = false ∧ c ≠ byte '.' := by
    cases hexponent with
    | absent => exact fun c hc => ⟨(hrest c hc).1, (hrest c hc).2.1⟩
    | present hletter _ _ =>
      rintro c ⟨⟩
      rcases hletter with rfl | rfl <;> decide
  refine ⟨?_, hbehind⟩
  cases hfraction with
  | absent => exact fun c hc => (hbehind c hc).1
  | present _ =>
    rintro c ⟨⟩
    decide

/-- A number without sign is split off as one. -/
theorem unsigned?_sound {b literal rest sign : Bytes} (h : unsigned? b = some (literal, rest))
    (hsign : sign = [] ∨ sign = [byte '-']) :
    b = literal ++ rest ∧ IsNumber (sign ++ literal) := by
  unfold unsigned? at h
  dsimp only at h
  split at h
  · next hwhole =>
    split at h
    · cases h
    next fraction rest' hfraction =>
    split at h
    · cases h
    next exponent rest'' hexponent =>
    cases h
    obtain ⟨hdrop, hisFraction⟩ := fraction?_sound hfraction
    obtain ⟨rfl, hisExponent⟩ := exponent?_sound hexponent
    constructor
    · rw [List.append_assoc, List.append_assoc, ← hdrop, List.takeWhile_append_dropWhile]
    · have hnumeral : IsNumeral (b.takeWhile isDigit) :=
        ⟨fun d hd => List.mem_takeWhile_imp hd, hwhole⟩
      have hnumber := IsNumber.intro hsign hnumeral hisFraction hisExponent
      rwa [List.append_assoc, List.append_assoc, ← List.append_assoc _ fraction] at hnumber
  · cases h

/-- A number is split off as one. -/
theorem number?_sound {b literal rest : Bytes} (h : number? b = some (literal, rest)) :
    b = literal ++ rest ∧ IsNumber literal := by
  unfold number? at h
  split at h
  · cases h
  split at h
  · next c tail hminus =>
    subst hminus
    split at h
    · next literal rest' htail =>
      cases h
      obtain ⟨rfl, hnumber⟩ := unsigned?_sound htail (.inr rfl)
      exact ⟨rfl, hnumber⟩
    · cases h
  · exact unsigned?_sound h (.inl rfl)

/-- A number without sign is split off whole where nothing follows that goes on with it. -/
theorem unsigned?_append {whole fraction exponent rest : Bytes} (hwhole : IsNumeral whole)
    (hfraction : IsFraction fraction) (hexponent : IsExponent exponent) (hrest : EndsNumber rest) :
    unsigned? (whole ++ (fraction ++ (exponent ++ rest))) =
      some (whole ++ fraction ++ exponent, rest) := by
  obtain ⟨hnodigit, hbehind⟩ := noDigit_append hfraction hexponent hrest
  obtain ⟨htake, hdrop⟩ := takeWhile_digits hwhole.all_isDigit hnodigit
  unfold unsigned?
  dsimp only
  rw [htake, hdrop, if_pos hwhole.isWhole_eq, fraction?_append hfraction hbehind]
  dsimp only
  rw [exponent?_append hexponent hrest]

/-- A number is split off whole where nothing follows that goes on with it. -/
theorem number?_append {literal rest : Bytes} (h : IsNumber literal) (hrest : EndsNumber rest) :
    number? (literal ++ rest) = some (literal, rest) := by
  obtain @⟨sign, whole, fraction, exponent, hsign, hwhole, hfraction, hexponent⟩ := h
  have hunsigned := unsigned?_append hwhole hfraction hexponent hrest
  rcases hsign with rfl | rfl
  · -- Without a sign the first character is a digit.
    cases whole with
    | nil => cases hwhole.isWhole_eq
    | cons d whole =>
      have hd : d ≠ byte '-' := by
        rintro rfl
        exact absurd (hwhole.all_isDigit _ List.mem_cons_self) (by decide)
      simp only [List.nil_append, List.cons_append, List.append_assoc] at hunsigned ⊢
      rw [number?, if_neg hd, hunsigned]
  · simp only [List.cons_append, List.nil_append, List.append_assoc] at hunsigned ⊢
    rw [number?, if_pos rfl, hunsigned]

/-! ## Words -/

theorem word?_sound {letters : List Char} {value j : Json} {b rest : Bytes}
    (h : word? letters value b = some (j, rest)) : j = value ∧ b = letters.map byte ++ rest := by
  unfold word? at h
  split at h
  · next tail htail =>
    cases h
    exact ⟨rfl, (List.isPrefixOf?_eq_some_iff_append_eq.1 htail).symm⟩
  · cases h

end SecondFactor.Json
