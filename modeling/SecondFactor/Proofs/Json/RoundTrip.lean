import SecondFactor.Json.Writer
import SecondFactor.Proofs.Json.Reading

/-!
# Reading What Was Written

The compact form of a value is one of its spellings, if its numbers are natural numbers in decimal
(`Plain`), as all numbers are that the library writes; strings and member names may hold any bytes.
So it reads back as the value. The main statements are `spells_write` and `read?_write`.
-/

namespace SecondFactor.Json

/-- Values all of whose numbers are numerals. -/
inductive Plain : Json → Prop
  /-- The value `null`. -/
  | null : Plain .null
  /-- A truth value. -/
  | bool (value : Bool) : Plain (.bool value)
  /-- A numeral. -/
  | number {literal : Bytes} (h : IsNumeral literal) : Plain (.number literal)
  /-- Any string. -/
  | string (content : Bytes) : Plain (.string content)
  /-- An array of such values. -/
  | array {elements : List Json} (h : ∀ element ∈ elements, Plain element) :
      Plain (.array elements)
  /-- An object of such values. -/
  | object {members : List (Bytes × Json)} (h : ∀ member ∈ members, Plain member.2) :
      Plain (.object members)

/-! ## Strings -/

/-- A part that is no first half of a code point. -/
def Piece.Whole : Piece → Prop
  | .raw _ => True
  | .code u => isHighSurrogate u = false

/-- Such a part stands for its own bytes, whatever follows it. -/
theorem content_cons {piece : Piece} (h : piece.Whole) (rest : List Piece) :
    content (piece :: rest) = piece.bytes ++ content rest := by
  cases piece with
  | raw b => rfl
  | code u =>
    cases rest with
    | nil => exact (List.append_nil _).symm
    | cons next rest =>
      cases next with
      | raw b => rfl
      | code u' =>
        have hapart : ¬IsPair u u' := fun hpair => Bool.false_ne_true (h.symm.trans hpair.1)
        rw [content, if_neg hapart]
        rfl

/-- How a byte is written spells a part that stands for the byte. -/
theorem exists_spellsPiece (b : UInt8) :
    ∃ piece, SpellsPiece piece (escape b) ∧ piece.Whole ∧ piece.bytes = [b] := by
  unfold escape
  -- The short escapes come first, then the long one of other controls, then bytes as they stand.
  iterate 7
    split
    · next h => exact ⟨.raw b, .short (by rw [h]; decide), trivial, rfl⟩
  split
  · next hcontrol =>
    -- A control is written with four digits, the first two of which are zeros.
    have hb : b.toNat < 0x20 := hcontrol
    have hhi := Hex.digitValue?_digit (b.toNat / 16) (by omega)
    have hlo := Hex.digitValue?_digit (b.toNat % 16) (by omega)
    have hzero : Hex.digitValue? (byte '0') = some 0 := by decide
    have hunit : unit? (byte '0') (byte '0') (Hex.digit (b.toNat / 16))
        (Hex.digit (b.toNat % 16)) = some b.toNat := by
      rw [unit?, hzero, hhi, hlo]
      simp only [Option.some.injEq]
      omega
    refine ⟨.code b.toNat, .long hunit, ?_, ?_⟩
    · simp only [Piece.Whole, isHighSurrogate, Bool.and_eq_false_iff, decide_eq_false_iff_not]
      omega
    · rw [Piece.bytes, codeBytes, if_pos (by omega), UInt8.ofNat_toNat]
  · next hquote hbackslash _ _ _ _ _ hcontrol =>
    exact ⟨.raw b, .raw hquote hbackslash hcontrol, trivial, rfl⟩

/-- A string between quotation marks is a spelling of it. -/
theorem spellsString_quote (b : Bytes) : SpellsString b (quote b) := by
  have hparts : ∃ parts : List (Piece × Bytes), (∀ part ∈ parts, SpellsPiece part.1 part.2) ∧
      content (parts.map Prod.fst) = b ∧ parts.flatMap Prod.snd = b.flatMap escape := by
    induction b with
    | nil => exact ⟨[], by simp, rfl, rfl⟩
    | cons c b ih =>
      obtain ⟨piece, hspells, hwhole, hbytes⟩ := exists_spellsPiece c
      obtain ⟨parts, hparts, hcontent, htext⟩ := ih
      refine ⟨(piece, escape c) :: parts, List.forall_mem_cons.2 ⟨hspells, hparts⟩, ?_, ?_⟩
      · rw [List.map_cons, content_cons hwhole, hbytes, hcontent]
        rfl
      · rw [List.flatMap_cons, List.flatMap_cons, htext]
  obtain ⟨parts, hparts, rfl, htext⟩ := hparts
  have hspells := SpellsString.intro parts hparts
  rwa [htext] at hspells

/-! ## Values -/

/-- A numeral is a number without sign, fraction and exponent. -/
theorem IsNumeral.isNumber {literal : Bytes} (h : IsNumeral literal) : IsNumber literal := by
  simpa using IsNumber.intro (.inl rfl) h .absent .absent

theorem writeElements_eq (elements : List Json) :
    writeElements elements = separated (elements.map write) := by
  induction elements with
  | nil => rw [writeElements]; rfl
  | cons element others ih =>
    cases others with
    | nil => rw [writeElements, List.map_singleton, separated_singleton]
    | cons next others =>
      rw [writeElements, ih]
      exact (separated_cons element.write (List.cons_ne_nil next.write _)).symm

/-- A member with the spelling in which it is written. -/
def MemberText.written (member : Bytes × Json) : MemberText :=
  ⟨member.1, quote member.1, member.2, member.2.write⟩

theorem writeMembers_eq (members : List (Bytes × Json)) :
    writeMembers members = separated (members.map fun m => (MemberText.written m).text) := by
  induction members with
  | nil => rw [writeMembers]; rfl
  | cons member others ih =>
    obtain ⟨name, value⟩ := member
    cases others with
    | nil =>
      rw [writeMembers, List.map_singleton, separated_singleton]
      rfl
    | cons next others =>
      have hsep := separated_cons (MemberText.written (name, value)).text
        (List.cons_ne_nil (MemberText.written next).text
          (others.map fun m => (MemberText.written m).text))
      rw [writeMembers, ih]
      refine Eq.trans ?_ hsep.symm
      simp [MemberText.written, MemberText.text]

/-- The compact form of a value is a spelling of it. -/
theorem spells_write {j : Json} (h : Plain j) : Spells j j.write := by
  induction h with
  | null =>
    rw [write]
    exact .null
  | bool value =>
    cases value with
    | false => rw [write]; exact .boolFalse
    | true => rw [write]; exact .boolTrue
  | number h =>
    rw [write]
    exact .number h.isNumber
  | string content =>
    rw [write]
    exact .string (spellsString_quote content)
  | @array elements _ ih =>
    rw [write, writeElements_eq]
    by_cases hnil : elements = []
    · subst hnil
      exact .emptyArray blanks_nil
    · let items := elements.map fun element => (element, element.write)
      have hitems : ∀ item ∈ items, Spells item.1 item.2 := by
        intro item hitem
        obtain ⟨element, helement, rfl⟩ := List.mem_map.1 hitem
        exact ih element helement
      have harray := Spells.array (mt List.map_eq_nil_iff.1 hnil) hitems
      simpa [items, Function.comp_def] using harray
  | @object members _ ih =>
    rw [write, writeMembers_eq]
    by_cases hnil : members = []
    · subst hnil
      exact .emptyObject blanks_nil
    · let items := members.map MemberText.written
      have hnames : ∀ item ∈ items, SpellsName item.name item.nameText := by
        intro item hitem
        obtain ⟨member, -, rfl⟩ := List.mem_map.1 hitem
        exact .of_string (spellsString_quote member.1)
      have hvalues : ∀ item ∈ items, Spells item.value item.valueText := by
        intro item hitem
        obtain ⟨member, hmember, rfl⟩ := List.mem_map.1 hitem
        exact ih member hmember
      have hobject := Spells.object (mt List.map_eq_nil_iff.1 hnil) hnames hvalues
      simpa [items, Function.comp_def, MemberText.written, MemberText.member] using hobject

/-- A document that was written reads back. -/
theorem read?_write {j : Json} (h : Plain j) : read? j.write = some j :=
  read?_eq_some_iff.2 (spells_write h)

/-! ## Written objects -/

/-- An object is written between braces. -/
theorem exists_write_object (members : List (Bytes × Json)) :
    ∃ inner, (object members).write = byte '\x7b' :: inner ++ [byte '\x7d'] := by
  refine ⟨writeMembers members, ?_⟩
  rw [write]
  rfl

/-- A written object with more than blanks behind it spells nothing. -/
theorem not_spells_write_append {members : List (Bytes × Json)} (h : Plain (.object members))
    {tail : Bytes} (htail : ¬Blanks tail) (j : Json) :
    ¬Spells j ((object members).write ++ tail) := by
  intro hspells
  exact htail (hspells.eq_of_append (spells_write h) nofun).2

/-- A written object without its end spells nothing. -/
theorem not_spells_of_write_eq {members : List (Bytes × Json)} (h : Plain (.object members))
    {start rest : Bytes} (hwrite : (object members).write = start ++ rest) (hrest : rest ≠ [])
    (j : Json) : ¬Spells j start := by
  intro hstart
  obtain ⟨inner, hinner⟩ := exists_write_object members
  -- What is there still starts with the brace, so it could only be an object.
  have hbrace : Starts j (byte '\x7b') := by
    obtain ⟨gap, c, tail, rfl, hgap, hc⟩ := hstart.exists_cons
    rw [hwrite] at hinner
    cases gap with
    | nil =>
      rw [(List.cons.inj hinner).1] at hc
      exact hc
    | cons d gap =>
      have hd := hgap d List.mem_cons_self
      rw [(List.cons.inj hinner).1] at hd
      exact absurd hd (by decide)
  -- Then nothing but blanks would be missing; but the brace at the end is.
  have hblanks : Blanks rest :=
    (Spells.eq_of_append (hwrite ▸ spells_write h) hstart (hbrace.ends rest)).2
  have hlast : byte '\x7d' ∈ rest := by
    apply List.mem_of_getLast?
    rw [← List.getLast?_append_of_ne_nil start hrest, ← hwrite, hinner, List.getLast?_concat]
  exact absurd (hblanks _ hlast) (by decide)

end SecondFactor.Json
