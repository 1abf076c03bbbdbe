import SecondFactor.Text.Printable

/-!
# Quoted Text

A text between quotation marks, for messages that show a value which may not be printable. The
quotation mark, the backslash and the common controls are escaped by name, every other character
without a visible form by its code point.
-/

namespace SecondFactor.Text

/-- How quoted text shows a character. -/
def quotedChar (c : Char) : String :=
  match c with
  | '\x00' => "\\0"
  | '\t' => "\\t"
  | '\r' => "\\r"
  | '\n' => "\\n"
  | '"' => "\\\""
  | '\\' => "\\\\"
  | c =>
    if isPrintable c then c.toString
    else "\\u\x7b" ++ String.ofList (Nat.toDigits 16 c.toNat) ++ "\x7d"

/-- A text between quotation marks. -/
def quoted (s : String) : String :=
  "\"" ++ String.join (s.toList.map quotedChar) ++ "\""

end SecondFactor.Text
