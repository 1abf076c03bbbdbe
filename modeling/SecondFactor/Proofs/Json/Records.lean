import Mathlib.Data.List.Nodup
import SecondFactor.Aggregate
import SecondFactor.Envelope
import SecondFactor.Proofs.Json.RoundTrip

/-!
# Records Read Back

A type is a `LawfulWire` if the JSON form of each of its values gives the value back and holds no
numbers but numerals; then the documents of its values read back as well (`Wire.read?_write`). A
record is one if its fields are (`Wire.HasLayout.lawful`), since the object of its fields, named
differently, has just these fields (`Json.fields?_ofFields`).
-/

namespace SecondFactor

/-! ## Types whose documents read back -/

/-- A type whose values read back from their JSON forms, which the reader can read. -/
class LawfulWire (α : Type) [Wire α] : Prop where
  /-- A JSON form holds no numbers but numerals. -/
  plain_toJson : ∀ a : α, (Wire.toJson a).Plain
  /-- A JSON form gives the value back. -/
  ofJson?_toJson : ∀ a : α, Wire.ofJson? (Wire.toJson a) = some a

/-- The document of a value reads back as the value. -/
theorem Wire.read?_write {α : Type} [Wire α] [LawfulWire α] (a : α) :
    (Wire.read? (Wire.write a) : Option α) = some a := by
  rw [read?, write, Json.read?_write (LawfulWire.plain_toJson a)]
  exact LawfulWire.ofJson?_toJson a

/-- No document is empty. -/
theorem Wire.write_ne_nil {α : Type} [Wire α] [LawfulWire α] (a : α) : Wire.write a ≠ [] := by
  obtain ⟨gap, c, tail, hwrite, -⟩ :=
    (Json.spells_write (LawfulWire.plain_toJson a)).exists_cons
  rw [write, hwrite]
  exact List.append_ne_nil_of_right_ne_nil gap (List.cons_ne_nil c tail)

namespace Json

/-! ## Fields -/

/-- The names of fields are text. -/
theorem textMembers?_utf8 (fields : List (String × Json)) :
    textMembers? (fields.map fun (name, value) => (Text.utf8 name, value)) = some fields := by
  induction fields with
  | nil => rfl
  | cons field rest ih =>
    unfold textMembers? at ih ⊢
    obtain ⟨name, value⟩ := field
    rw [List.map_cons, List.mapM_cons, ih]
    simp only [Text.ofUtf8?_utf8]
    rfl

/-- A name stands as often among members as it does in the list of their names. -/
theorem count_names (members : List (String × Json)) (name : String) :
    (members.map Prod.fst).count name = members.countP (·.1 == name) := by
  rw [List.count, List.countP_map]
  rfl

/-- A member is passed over under another name. -/
theorem lookup_cons_of_ne {name other : String} {value : Json} {members : List (String × Json)}
    (h : other ≠ name) : ((name, value) :: members).lookup other = members.lookup other := by
  rw [List.lookup_cons, beq_false_of_ne h]

/-- A member is passed over under any of the names that are not its own. -/
theorem map_lookup_cons {name : String} {value : Json} {members : List (String × Json)}
    {names : List String} (h : name ∉ names) :
    names.map (fun other => ((name, value) :: members).lookup other) =
      names.map fun other => members.lookup other :=
  List.map_congr_left fun _ hother => lookup_cons_of_ne fun heq => h (heq ▸ hother)

/-- Among fields with different names each is found under its name. -/
theorem map_lookup_fields {fields : List (String × Json)}
    (hnodup : (fields.map Prod.fst).Nodup) :
    (fields.map Prod.fst).map (fun name => fields.lookup name) =
      fields.map fun field => some field.2 := by
  induction fields with
  | nil => rfl
  | cons field rest ih =>
    obtain ⟨name, value⟩ := field
    obtain ⟨hhead, hrest⟩ := List.nodup_cons.1 hnodup
    rw [List.map_cons, List.map_cons, map_lookup_cons hhead, ih hrest, List.lookup_cons_self]
    rfl

/-- An object of fields with different names has these fields and no others. -/
theorem fields?_ofFields (rules : RecordRules) (fields : List (String × Json))
    (hnodup : (fields.map Prod.fst).Nodup) :
    fields? (fields.map Prod.fst) rules (ofFields fields) =
      some (fields.map fun field => some field.2) := by
  have honce : ((fields.map Prod.fst).all fun name =>
      fields.countP (·.1 == name) ≤ 1) = true := by
    refine List.all_eq_true.2 fun name _ => decide_eq_true ?_
    rw [← count_names]
    exact List.nodup_iff_count_le_one.1 hnodup name
  have hknown : (fields.all fun (name, _) => (fields.map Prod.fst).contains name) = true := by
    refine List.all_eq_true.2 fun field hfield => ?_
    exact List.contains_iff_mem.2 (List.mem_map_of_mem hfield)
  rw [ofFields, fields?, textMembers?_utf8]
  simp only [honce, hknown, map_lookup_fields hnodup]
  simp

/-- An object of fields holds no numbers but those of its fields. -/
theorem plain_ofFields {fields : List (String × Json)} (h : ∀ field ∈ fields, Plain field.2) :
    Plain (ofFields fields) := by
  refine .object fun member hmember => ?_
  obtain ⟨field, hfield, rfl⟩ := List.mem_map.1 hmember
  exact h field hfield

@[simp] theorem hex?_ofHex (b : Bytes) : (ofHex b).hex? = some b :=
  Hex.decode?_encode b

theorem plain_ofHex (b : Bytes) : Plain (ofHex b) :=
  .string _

/-- Elements that read back one by one read back as a list. -/
theorem list?_map {α : Type} {f : α → Json} {g : Json → Option α}
    (h : ∀ a, g (f a) = some a) (as : List α) : list? g (.array (as.map f)) = some as := by
  rw [list?]
  induction as with
  | nil => rfl
  | cons a rest ih =>
    rw [List.map_cons, List.mapM_cons, h, ih]
    rfl

end Json

/-! ## Records -/

/-- A type is written as the object of certain fields, and what is found under the names of the
fields decides what is read. -/
structure Wire.HasLayout (α : Type) [Wire α] (names : List String) (rules : Json.RecordRules)
    (fields : α → List (String × Json)) : Prop where
  /-- The fields are named differently. -/
  nodup : names.Nodup
  /-- These are their names. -/
  names_eq : ∀ a, (fields a).map Prod.fst = names
  /-- They hold no numbers but numerals. -/
  plain : ∀ a, ∀ field ∈ fields a, field.2.Plain
  /-- A value is written as the object of its fields. -/
  toJson_eq : ∀ a, Wire.toJson a = .ofFields (fields a)
  /-- A value is read from what is found, and comes back from its fields. -/
  exists_make : ∃ make : List (Option Json) → Option α,
    (∀ j, Wire.ofJson? j = (Json.fields? names rules j).bind make) ∧
      ∀ a, make ((fields a).map fun field => some field.2) = some a

/-- The values of a record read back. -/
theorem Wire.HasLayout.lawful {α : Type} [Wire α] {names : List String} {rules : Json.RecordRules}
    {fields : α → List (String × Json)} (h : HasLayout α names rules fields) : LawfulWire α where
  plain_toJson a := by
    rw [h.toJson_eq]
    exact Json.plain_ofFields (h.plain a)
  ofJson?_toJson a := by
    obtain ⟨make, hmake, hback⟩ := h.exists_make
    have hfields := Json.fields?_ofFields rules (fields a) (by rw [h.names_eq]; exact h.nodup)
    rw [h.names_eq] at hfields
    rw [hmake, h.toJson_eq, hfields, Option.bind_some, hback]

namespace LawfulWire

open Json

instance {size : Nat} : LawfulWire (FixedBytes size) where
  plain_toJson b := plain_ofHex b.bytes
  ofJson?_toJson b := by
    change (match (ofHex b.bytes).hex? with
      | some b => FixedBytes.ofBytes? size b
      | none => none) = some b
    rw [hex?_ofHex]
    exact FixedBytes.ofBytes?_bytes b

instance {α : Type} [Wire α] [LawfulWire α] : LawfulWire (List α) where
  plain_toJson as := by
    refine .array fun element helement => ?_
    obtain ⟨a, -, rfl⟩ := List.mem_map.1 helement
    exact plain_toJson a
  ofJson?_toJson as := list?_map ofJson?_toJson as

end LawfulWire

section Layouts

open Json LawfulWire

theorem VoteExtension.hasLayout : Wire.HasLayout VoteExtension ["signature"] {} fun extension =>
    [("signature", ofHex extension.signature)] where
  nodup := by simp
  names_eq _ := rfl
  plain := by simp [plain_ofHex]
  toJson_eq _ := rfl
  exists_make := ⟨_, fun _ => rfl, fun _ => by simp⟩

instance : LawfulWire VoteExtension :=
  VoteExtension.hasLayout.lawful

theorem AggregateEntry.hasLayout : Wire.HasLayout AggregateEntry ["validator", "signature"] {}
    fun entry => [("validator", Wire.toJson entry.validator),
      ("signature", ofHex entry.signature)] where
  nodup := by simp
  names_eq _ := rfl
  plain := by simp [plain_ofHex, plain_toJson]
  toJson_eq _ := rfl
  exists_make := ⟨_, fun _ => rfl, fun _ => by simp [ofJson?_toJson]⟩

instance : LawfulWire AggregateEntry :=
  AggregateEntry.hasLayout.lawful

theorem Aggregate.hasLayout : Wire.HasLayout Aggregate ["entries"] {} fun aggregate =>
    [("entries", Wire.toJson aggregate.entries)] where
  nodup := by simp
  names_eq _ := rfl
  plain := by simp [plain_toJson]
  toJson_eq _ := rfl
  exists_make := ⟨_, fun _ => rfl, fun _ => by simp [ofJson?_toJson]⟩

instance : LawfulWire Aggregate :=
  Aggregate.hasLayout.lawful

theorem Envelope.hasLayout : Wire.HasLayout Envelope ["public_key", "signature"] {} fun envelope =>
    [("public_key", ofHex envelope.publicKey), ("signature", ofHex envelope.signature)] where
  nodup := by simp
  names_eq _ := rfl
  plain := by simp [plain_ofHex]
  toJson_eq _ := rfl
  exists_make := ⟨_, fun _ => rfl, fun _ => by simp⟩

instance : LawfulWire Envelope :=
  Envelope.hasLayout.lawful

end Layouts

/-! ## Documents of the records -/

/-- An aggregate reads back from its document. -/
theorem Aggregate.decode_encode (aggregate : Aggregate) :
    decode aggregate.encode = .ok aggregate := by
  rw [decode, encode, Wire.read?_write]

/-- The extension of a vote reads back from its document if it has a signature. -/
theorem VoteExtension.decode_encode {extension : VoteExtension} (h : extension.signature ≠ []) :
    decode extension.encode = .ok extension := by
  rw [decode, encode, Wire.read?_write]
  exact if_neg h

/-- An envelope reads back from its document without the recovery byte. -/
theorem Envelope.decode_write (envelope : Envelope) :
    decode (Wire.write envelope) =
      .ok { envelope with signature := Signature.stripRecoveryByte envelope.signature } := by
  rw [decode, if_neg (Wire.write_ne_nil envelope), Wire.read?_write]

/-- The document that is found behind the memo prefix stands there. -/
theorem Envelope.bodyOf?_eq_some_iff {memoPrefix : String} {b body : Bytes} :
    bodyOf? memoPrefix b = some body ↔ Text.utf8 memoPrefix ++ body = b :=
  List.isPrefixOf?_eq_some_iff_append_eq

end SecondFactor
