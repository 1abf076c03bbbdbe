import SecondFactor.Json.Reader
import SecondFactor.Json.Writer

/-!
# Records in JSON

The two spellings of a record: an object with the fields as members in any order, and an array
with the values of the fields in their order. A record type says which fields it has, whether
other members may stand beside them, and whether an array may leave the last ones out. Types
with such a form are instances of `Wire`.
-/

namespace SecondFactor

/-- A type with a JSON form. -/
class Wire (α : Type) where
  /-- The JSON form of a value. -/
  toJson : α → Json
  /-- The value of a JSON form. -/
  ofJson? : Json → Option α

namespace Wire

/-- The compact JSON document of a value. -/
def write {α : Type} [Wire α] (a : α) : Bytes :=
  (toJson a).write

/-- The value of a JSON document. -/
def read? {α : Type} [Wire α] (b : Bytes) : Option α :=
  match Json.read? b with
  | some j => ofJson? j
  | none => none

instance : Wire String where
  toJson := Json.ofText
  ofJson? := Json.text?

instance : Wire UInt64 where
  toJson n := Json.ofNat n.toNat
  ofJson? j := (j.nat? UInt64.size).map UInt64.ofNat

instance {size : Nat} : Wire (FixedBytes size) where
  toJson b := Json.ofHex b.bytes
  ofJson? j := match j.hex? with
    | some b => FixedBytes.ofBytes? size b
    | none => none

instance {α : Type} [Wire α] : Wire (List α) where
  toJson as := .array (as.map toJson)
  ofJson? := Json.list? ofJson?

end Wire

namespace Json

/-- The array of the bytes of a string as numbers. -/
def ofByteNumbers (b : Bytes) : Json :=
  .array (b.map fun d => ofNat d.toNat)

/-- The bytes that an array of numbers below 256 denotes. -/
def byteNumbers? : Json → Option Bytes :=
  list? fun j => (j.nat? 256).map UInt8.ofNat

/-- Which spellings a record type admits beyond its fields. -/
structure RecordRules where
  /-- Members with other names are skipped and do not make the record invalid. -/
  ignoresUnknown : Bool := false
  /-- An array may leave out the last fields. -/
  mayBeShorter : Bool := false

/-- The members of an object whose names are all text. -/
def textMembers? (members : List (Bytes × Json)) : Option (List (String × Json)) :=
  members.mapM fun (name, value) => (Text.ofUtf8? name).map fun name => (name, value)

/-- The values of the named fields of a record, in the order of the names; `none` stands for a
field that is left out. No field may stand twice. -/
def fields? (names : List String) (rules : RecordRules) : Json → Option (List (Option Json))
  | .array elements =>
    if elements.length = names.length ∨ rules.mayBeShorter ∧ elements.length < names.length then
      some (elements.map some ++ List.replicate (names.length - elements.length) none)
    else none
  | .object members =>
    match textMembers? members with
    | none => none
    | some members =>
      if (names.all fun name => members.countP (·.1 == name) ≤ 1) ∧
          (rules.ignoresUnknown ∨ members.all fun (name, _) => names.contains name) then
        some (names.map fun name => members.lookup name)
      else none
  | _ => none

/-- The value of a type without data whose name a string or a one-member object tells. -/
def variant? {α : Type} (variants : List (String × α)) : Json → Option α
  | .object [(name, .null)] =>
    match Text.ofUtf8? name with
    | some name => variants.lookup name
    | none => none
  | j =>
    match j.text? with
    | some name => variants.lookup name
    | none => none

end Json

end SecondFactor
