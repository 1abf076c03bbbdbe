import SecondFactor.Json.Basic

/-!
# Writing JSON

The compact form of a value: no blanks, members in their order, and escapes only for the
quotation mark, the backslash and the control characters.
-/

namespace SecondFactor.Json

/-- How a byte stands in a string. -/
def escape (b : UInt8) : Bytes :=
  if b = byte '"' then [byte '\\', byte '"']
  else if b = byte '\\' then [byte '\\', byte '\\']
  else if b = 0x08 then [byte '\\', byte 'b']
  else if b = 0x09 then [byte '\\', byte 't']
  else if b = 0x0A then [byte '\\', byte 'n']
  else if b = 0x0C then [byte '\\', byte 'f']
  else if b = 0x0D then [byte '\\', byte 'r']
  else if b < 0x20 then byte '\\' :: byte 'u' :: byte '0' :: byte '0' :: Hex.encode [b]
  else [b]

/-- A string between quotation marks. -/
def quote (content : Bytes) : Bytes :=
  byte '"' :: content.flatMap escape ++ [byte '"']

mutual

/-- The compact form of a value. -/
def write : Json → Bytes
  | .null => ['n', 'u', 'l', 'l'].map byte
  | .bool true => ['t', 'r', 'u', 'e'].map byte
  | .bool false => ['f', 'a', 'l', 's', 'e'].map byte
  | .number literal => literal
  | .string content => quote content
  | .array elements => byte '[' :: (writeElements elements ++ [byte ']'])
  | .object members => byte '\x7b' :: (writeMembers members ++ [byte '\x7d'])

/-- Elements with commas between them. -/
def writeElements : List Json → Bytes
  | [] => []
  | [element] => write element
  | element :: next :: rest => write element ++ byte ',' :: writeElements (next :: rest)

/-- Members with commas between them. -/
def writeMembers : List (Bytes × Json) → Bytes
  | [] => []
  | [(name, member)] => quote name ++ byte ':' :: write member
  | (name, member) :: next :: rest =>
    quote name ++ byte ':' :: (write member ++ byte ',' :: writeMembers (next :: rest))

end

end SecondFactor.Json
