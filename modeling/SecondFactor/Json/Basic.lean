import SecondFactor.Bytes.Hex
import SecondFactor.Text.Utf8

/-!
# JSON Values

The tree of a JSON document. Strings and member names are kept as bytes after their escapes are
resolved: a document may hold bytes that are no text in the parts that nobody reads, and only
where a value is used does it have to be text. Numbers are kept as they are written.
-/

namespace SecondFactor

/-- A JSON value. -/
inductive Json where
  /-- The value `null`. -/
  | null
  /-- A truth value. -/
  | bool (value : Bool)
  /-- A number, as it is written. -/
  | number (literal : Bytes)
  /-- A string, with its escapes resolved. -/
  | string (content : Bytes)
  /-- A list of values. -/
  | array (elements : List Json)
  /-- A list of named values. -/
  | object (members : List (Bytes × Json))

namespace Json

/-- The code of an ASCII character. -/
abbrev byte (c : Char) : UInt8 := c.toUInt8

/-- An ASCII decimal digit. -/
def isDigit (b : UInt8) : Bool :=
  byte '0' ≤ b && b ≤ byte '9'

/-- A string value for a text. -/
def ofText (s : String) : Json :=
  .string (Text.utf8 s)

/-- A string value that holds the hexadecimal digits of a byte string. -/
def ofHex (b : Bytes) : Json :=
  .string (Hex.encode b)

/-- A number value in decimal. -/
def ofNat (n : Nat) : Json :=
  .number ((Nat.toDigits 10 n).map byte)

/-- An object with members named by text, in the order given. -/
def ofFields (fields : List (String × Json)) : Json :=
  .object (fields.map fun (name, value) => (Text.utf8 name, value))

/-- The text that a string value holds. -/
def text? : Json → Option String
  | .string content => Text.ofUtf8? content
  | _ => none

/-- The bytes that a string value holds in hexadecimal. -/
def hex? : Json → Option Bytes
  | .string content => Hex.decode? content
  | _ => none

/-- The number below `bound` that a number value denotes; a sign, a fraction or an exponent is
refused. -/
def nat? (bound : Nat) : Json → Option Nat
  | .number literal =>
    if literal.all isDigit then
      let n := Nat.ofDigitChars 10 (literal.map Char.ofUInt8) 0
      if n < bound then some n else none
    else none
  | _ => none

/-- The elements of an array, each read by `f`. -/
def list? {α : Type} (f : Json → Option α) : Json → Option (List α)
  | .array elements => elements.mapM f
  | _ => none

end Json

end SecondFactor
