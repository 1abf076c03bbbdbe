import SecondFactor.Json.Reader

/-!
# The Grammar of JSON

Which bytes spell which value, said without a reader: `Spells j b` holds if the document `b` denotes
the value `j`. A value has many spellings, since blanks may stand between its parts, the members of
an object are kept in the order in which they stand, and a string may write a character as it is or
with an escape. Strings denote bytes; two escapes that are the halves of one code point denote this
code point.
-/

namespace SecondFactor.Json

/-- Nothing but blanks. -/
def Blanks (b : Bytes) : Prop :=
  ∀ c ∈ b, isBlank c = true

/-! ## Numbers -/

/-- One digit or more. -/
structure Digits (b : Bytes) : Prop where
  /-- There is a digit. -/
  ne_nil : b ≠ []
  /-- There are only digits. -/
  all_isDigit : ∀ d ∈ b, isDigit d = true

/-- The digits of a natural number, without zeros in front of others. -/
structure IsNumeral (literal : Bytes) : Prop where
  /-- There are only digits. -/
  all_isDigit : ∀ d ∈ literal, isDigit d = true
  /-- There is at least one, and no zero stands in front of others. -/
  isWhole_eq : isWhole literal = true

/-- What may stand behind the whole part of a number. -/
inductive IsFraction : Bytes → Prop
  /-- No fraction. -/
  | absent : IsFraction []
  /-- A point with digits behind it. -/
  | present {digits : Bytes} (h : Digits digits) : IsFraction (byte '.' :: digits)

/-- What may stand at the end of a number. -/
inductive IsExponent : Bytes → Prop
  /-- No exponent. -/
  | absent : IsExponent []
  /-- A letter, a sign if need be, and digits. -/
  | present {letter : UInt8} {sign digits : Bytes} (hletter : letter = byte 'e' ∨ letter = byte 'E')
      (hsign : sign = [] ∨ sign = [byte '+'] ∨ sign = [byte '-']) (h : Digits digits) :
      IsExponent (letter :: sign ++ digits)

/-- The spelling of a number. -/
inductive IsNumber : Bytes → Prop
  /-- A sign if need be, digits, a fraction and an exponent. -/
  | intro {sign whole fraction exponent : Bytes} (hsign : sign = [] ∨ sign = [byte '-'])
      (hwhole : IsNumeral whole) (hfraction : IsFraction fraction)
      (hexponent : IsExponent exponent) : IsNumber (sign ++ whole ++ fraction ++ exponent)

/-! ## Strings -/

/-- How a part of a string is written. -/
inductive SpellsPiece : Piece → Bytes → Prop
  /-- A byte as it stands, which is no quotation mark, no backslash and no control character. -/
  | raw {c : UInt8} (hquote : c ≠ byte '"') (hbackslash : c ≠ byte '\\') (hcontrol : ¬c < 0x20) :
      SpellsPiece (.raw c) [c]
  /-- A backslash and a letter. -/
  | short {e b : UInt8} (h : shortEscape? e = some b) : SpellsPiece (.raw b) [byte '\\', e]
  /-- A backslash, the letter `u` and four hexadecimal digits. -/
  | long {a b c d : UInt8} {u : Nat} (h : unit? a b c d = some u) :
      SpellsPiece (.code u) [byte '\\', byte 'u', a, b, c, d]

/-- Two units are the halves of one code point. -/
def IsPair (h u : Nat) : Prop :=
  isHighSurrogate h = true ∧ isLowSurrogate u = true

instance (h u : Nat) : Decidable (IsPair h u) :=
  inferInstanceAs (Decidable (_ ∧ _))

/-- The bytes that the parts of a string denote, the halves of a code point taken together. -/
def content : List Piece → Bytes
  | [] => []
  | .raw b :: rest => b :: content rest
  | [.code u] => codeBytes u
  | .code u :: .raw b :: rest => codeBytes u ++ content (.raw b :: rest)
  | .code h :: .code u :: rest =>
    if IsPair h u then codeBytes (0x10000 + (h - 0xD800) * 1024 + (u - 0xDC00)) ++ content rest
    else codeBytes h ++ content (.code u :: rest)

/-- The spelling of a string that denotes some bytes: parts between quotation marks. -/
inductive SpellsString : Bytes → Bytes → Prop
  /-- The parts are given with their spellings. -/
  | intro (parts : List (Piece × Bytes)) (h : ∀ part ∈ parts, SpellsPiece part.1 part.2) :
      SpellsString (content (parts.map Prod.fst))
        (byte '"' :: parts.flatMap Prod.snd ++ [byte '"'])

/-! ## Values -/

/-- Texts with commas between them. -/
def separated (texts : List Bytes) : Bytes :=
  [byte ','].intercalate texts

/-- A member of an object with the spellings of its name and of its value. -/
structure MemberText where
  /-- The name. -/
  name : Bytes
  /-- The spelling of the name. -/
  nameText : Bytes
  /-- The value. -/
  value : Json
  /-- The spelling of the value. -/
  valueText : Bytes

namespace MemberText

/-- The member without its spelling. -/
def member (m : MemberText) : Bytes × Json :=
  (m.name, m.value)

/-- The spelling of the member. -/
def text (m : MemberText) : Bytes :=
  m.nameText ++ byte ':' :: m.valueText

end MemberText

/-- The spelling of a name, with blanks around it. -/
inductive SpellsName : Bytes → Bytes → Prop
  /-- A string with blanks around it. -/
  | intro {name before text after : Bytes} (hbefore : Blanks before) (h : SpellsString name text)
      (hafter : Blanks after) : SpellsName name (before ++ text ++ after)

/-- The spelling of a value, with blanks around it. -/
inductive Spells : Json → Bytes → Prop
  /-- The value `null`. -/
  | null : Spells .null (['n', 'u', 'l', 'l'].map byte)
  /-- The truth value that is true. -/
  | boolTrue : Spells (.bool true) (['t', 'r', 'u', 'e'].map byte)
  /-- The truth value that is false. -/
  | boolFalse : Spells (.bool false) (['f', 'a', 'l', 's', 'e'].map byte)
  /-- A number. -/
  | number {literal : Bytes} (h : IsNumber literal) : Spells (.number literal) literal
  /-- A string. -/
  | string {content text : Bytes} (h : SpellsString content text) : Spells (.string content) text
  /-- An array without elements. -/
  | emptyArray {gap : Bytes} (h : Blanks gap) :
      Spells (.array []) (byte '[' :: gap ++ [byte ']'])
  /-- An array of elements, which are given with their spellings. -/
  | array {items : List (Json × Bytes)} (hne : items ≠ [])
      (h : ∀ item ∈ items, Spells item.1 item.2) :
      Spells (.array (items.map Prod.fst))
        (byte '[' :: separated (items.map Prod.snd) ++ [byte ']'])
  /-- An object without members. -/
  | emptyObject {gap : Bytes} (h : Blanks gap) :
      Spells (.object []) (byte '\x7b' :: gap ++ [byte '\x7d'])
  /-- An object of members, which are given with their spellings. -/
  | object {items : List MemberText} (hne : items ≠ [])
      (hnames : ∀ item ∈ items, SpellsName item.name item.nameText)
      (h : ∀ item ∈ items, Spells item.value item.valueText) :
      Spells (.object (items.map MemberText.member))
        (byte '\x7b' :: separated (items.map MemberText.text) ++ [byte '\x7d'])
  /-- Blanks around a value. -/
  | padded {j : Json} {before text after : Bytes} (hbefore : Blanks before) (h : Spells j text)
      (hafter : Blanks after) : Spells j (before ++ text ++ after)

/-! ## Laws of the parts -/

theorem blanks_nil : Blanks [] := by
  rintro c ⟨⟩

theorem separated_singleton (text : Bytes) : separated [text] = text :=
  List.intercalate_singleton

theorem separated_cons (text : Bytes) {texts : List Bytes} (h : texts ≠ []) :
    separated (text :: texts) = text ++ byte ',' :: separated texts := by
  rw [separated, List.intercalate_cons_of_ne_nil h, List.append_assoc]
  rfl

/-- Without blanks a spelling is one with no blanks around it. -/
theorem SpellsName.of_string {name text : Bytes} (h : SpellsString name text) :
    SpellsName name text := by
  have hname := SpellsName.intro blanks_nil h blanks_nil
  rwa [List.append_nil, List.nil_append] at hname

end SecondFactor.Json
