import SecondFactor.Json.Basic

/-!
# Reading JSON

The reader of JSON documents. It is strict about the grammar: numbers have no leading zeros,
control characters are escaped, nothing but blanks stands around the value. It is lenient about
text: bytes that are no UTF-8 and escapes of unpaired surrogates are kept in the tree, and
whoever uses a string decides whether it has to be text.
-/

namespace SecondFactor.Json

/-- The characters allowed between the parts of a document. -/
def isBlank (b : UInt8) : Bool :=
  b == 0x20 || b == 0x09 || b == 0x0A || b == 0x0D

/-- A document without the blanks at its start. -/
def skipBlanks (b : Bytes) : Bytes :=
  b.dropWhile isBlank

/-! ## Strings -/

/-- A part of a string: a byte as it stands, or the code point of an escape. -/
inductive Piece where
  /-- A byte as it stands, or the one that a short escape names. -/
  | raw (b : UInt8)
  /-- A code point, which may be an unpaired surrogate. -/
  | code (c : Nat)

/-- The bytes of a code point, in the pattern of UTF-8 for surrogates as well. -/
def codeBytes (c : Nat) : Bytes :=
  if c < 0x80 then [UInt8.ofNat c]
  else if c < 0x800 then [UInt8.ofNat (0xC0 + c / 64), UInt8.ofNat (0x80 + c % 64)]
  else if c < 0x10000 then
    [UInt8.ofNat (0xE0 + c / 4096), UInt8.ofNat (0x80 + c / 64 % 64), UInt8.ofNat (0x80 + c % 64)]
  else
    [UInt8.ofNat (0xF0 + c / 262144), UInt8.ofNat (0x80 + c / 4096 % 64),
      UInt8.ofNat (0x80 + c / 64 % 64), UInt8.ofNat (0x80 + c % 64)]

/-- The bytes of a part. -/
def Piece.bytes : Piece → Bytes
  | .raw b => [b]
  | .code c => codeBytes c

/-- The first half of a code point above U+FFFF. -/
def isHighSurrogate (u : Nat) : Bool := 0xD800 ≤ u && u < 0xDC00

/-- The second half of a code point above U+FFFF. -/
def isLowSurrogate (u : Nat) : Bool := 0xDC00 ≤ u && u < 0xE000

/-- Puts the 16-bit unit of an escape in front of the parts read so far, the last one first. A
second half joins the first half directly before it. -/
def pushUnit (u : Nat) : List Piece → List Piece
  | .code h :: done =>
    if isHighSurrogate h && isLowSurrogate u then
      .code (0x10000 + (h - 0xD800) * 1024 + (u - 0xDC00)) :: done
    else .code u :: .code h :: done
  | done => .code u :: done

/-- The unit that four hexadecimal digits denote. -/
def unit? (a b c d : UInt8) : Option Nat :=
  match Hex.digitValue? a, Hex.digitValue? b, Hex.digitValue? c, Hex.digitValue? d with
  | some a, some b, some c, some d => some (((a * 16 + b) * 16 + c) * 16 + d)
  | _, _, _, _ => none

/-- The byte that a short escape names by the letter after its backslash. -/
def shortEscape? (e : UInt8) : Option UInt8 :=
  if e = byte '"' ∨ e = byte '\\' ∨ e = byte '/' then some e
  else if e = byte 'b' then some 0x08
  else if e = byte 'f' then some 0x0C
  else if e = byte 'n' then some 0x0A
  else if e = byte 'r' then some 0x0D
  else if e = byte 't' then some 0x09
  else none

/-- Reads up to the closing quotation mark. The parts read so far are given and returned with the
last one first; the second result is what follows the quotation mark. -/
def scan : Bytes → List Piece → Option (List Piece × Bytes)
  | [], _ => none
  | c :: rest, done =>
    if c = byte '"' then some (done, rest)
    else if c = byte '\\' then
      match rest with
      | [] => none
      | e :: rest =>
        if e = byte 'u' then
          match rest with
          | a :: b :: c :: d :: rest =>
            match unit? a b c d with
            | some u => scan rest (pushUnit u done)
            | none => none
          | _ => none
        else
          match shortEscape? e with
          | some b => scan rest (.raw b :: done)
          | none => none
    else if c < 0x20 then none
    else scan rest (.raw c :: done)

/-- The bytes of the parts of a string, the last part given first. -/
def joinPieces (done : List Piece) : Bytes :=
  done.foldl (fun b piece => piece.bytes ++ b) []

/-- Reads a string from behind its opening quotation mark. -/
def string? (b : Bytes) : Option (Bytes × Bytes) :=
  match scan b [] with
  | some (done, rest) => some (joinPieces done, rest)
  | none => none

/-! ## Numbers -/

/-- Digits of a whole number: at least one, and no zero in front of others. -/
def isWhole : Bytes → Bool
  | [] => false
  | [_] => true
  | d :: _ => d != byte '0'

/-- Splits a fraction off, if one follows. -/
def fraction? : Bytes → Option (Bytes × Bytes)
  | [] => some ([], [])
  | c :: rest =>
    if c = byte '.' then
      let digits := rest.takeWhile isDigit
      if digits = [] then none else some (c :: digits, rest.dropWhile isDigit)
    else some ([], c :: rest)

/-- Splits the sign of an exponent off, if there is one. -/
def exponentSign : Bytes → Bytes × Bytes
  | [] => ([], [])
  | c :: rest => if c = byte '+' ∨ c = byte '-' then ([c], rest) else ([], c :: rest)

/-- Splits an exponent off, if one follows. -/
def exponent? : Bytes → Option (Bytes × Bytes)
  | [] => some ([], [])
  | c :: rest =>
    if c = byte 'e' ∨ c = byte 'E' then
      let (sign, rest) := exponentSign rest
      let digits := rest.takeWhile isDigit
      if digits = [] then none else some (c :: sign ++ digits, rest.dropWhile isDigit)
    else some ([], c :: rest)

/-- Splits a number without sign off. -/
def unsigned? (b : Bytes) : Option (Bytes × Bytes) :=
  let whole := b.takeWhile isDigit
  if isWhole whole then
    match fraction? (b.dropWhile isDigit) with
    | none => none
    | some (fraction, rest) =>
      match exponent? rest with
      | none => none
      | some (exponent, rest) => some (whole ++ fraction ++ exponent, rest)
  else none

/-- Splits a number off. -/
def number? : Bytes → Option (Bytes × Bytes)
  | [] => none
  | c :: rest =>
    if c = byte '-' then
      match unsigned? rest with
      | some (literal, rest) => some (c :: literal, rest)
      | none => none
    else unsigned? (c :: rest)

/-! ## Values -/

/-- Reads a word whose first letter is already known. -/
def word? (letters : List Char) (value : Json) (b : Bytes) : Option (Json × Bytes) :=
  match (letters.map byte).isPrefixOf? b with
  | some rest => some (value, rest)
  | none => none

mutual

/-- Reads a value. The first argument bounds the number of nested calls. -/
def value? : Nat → Bytes → Option (Json × Bytes)
  | 0, _ => none
  | fuel + 1, b =>
    match skipBlanks b with
    | [] => none
    | c :: rest =>
      if c = byte '"' then
        match string? rest with
        | some (content, rest) => some (.string content, rest)
        | none => none
      else if c = byte '[' then
        -- Only behind the opening bracket the closing one may stand without an element before it.
        match skipBlanks rest with
        | [] => none
        | d :: after => if d = byte ']' then some (.array [], after) else elements? fuel [] rest
      else if c = byte '\x7b' then
        -- The same holds for the members of an object.
        match skipBlanks rest with
        | [] => none
        | d :: after => if d = byte '\x7d' then some (.object [], after) else members? fuel [] rest
      else if c = byte 'n' then word? ['u', 'l', 'l'] .null rest
      else if c = byte 't' then word? ['r', 'u', 'e'] (.bool true) rest
      else if c = byte 'f' then word? ['a', 'l', 's', 'e'] (.bool false) rest
      else
        match number? (c :: rest) with
        | some (literal, rest) => some (.number literal, rest)
        | none => none

/-- Reads the elements that an array still has, one at least, given those already read with the
last one first. -/
def elements? : Nat → List Json → Bytes → Option (Json × Bytes)
  | 0, _, _ => none
  | fuel + 1, done, b =>
    match value? fuel b with
    | none => none
    | some (element, rest) =>
      match skipBlanks rest with
      | [] => none
      | c :: rest =>
        if c = byte ',' then elements? fuel (element :: done) rest
        else if c = byte ']' then some (.array (element :: done).reverse, rest)
        else none

/-- Reads the members that an object still has, one at least, given those already read with the
last one first. -/
def members? : Nat → List (Bytes × Json) → Bytes → Option (Json × Bytes)
  | 0, _, _ => none
  | fuel + 1, done, b =>
    match skipBlanks b with
    | [] => none
    | c :: rest =>
      if c = byte '"' then
        match string? rest with
        | none => none
        | some (name, rest) =>
          match skipBlanks rest with
          | [] => none
          | c :: rest =>
            if c = byte ':' then
              match value? fuel rest with
              | none => none
              | some (member, rest) =>
                match skipBlanks rest with
                | [] => none
                | c :: rest =>
                  if c = byte ',' then members? fuel ((name, member) :: done) rest
                  else if c = byte '\x7d' then
                    some (.object ((name, member) :: done).reverse, rest)
                  else none
            else none
      else none

end

/-- Reads a document: one value, with nothing but blanks around it. Every call inside a value
takes a byte from the document or hands it on to a call that does, so twice its length bounds
their number. -/
def read? (b : Bytes) : Option Json :=
  match value? (2 * b.length + 1) b with
  | some (value, rest) => if skipBlanks rest = [] then some value else none
  | none => none

end SecondFactor.Json
