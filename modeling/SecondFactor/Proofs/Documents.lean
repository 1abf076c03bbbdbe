import SecondFactor.Proofs.Json.Forms

/-!
# Documents of Envelopes, Vote Extensions and Aggregates

Which bytes are read as which record. A document is a spelling of one of the forms of the record, so
blanks, escapes, the order of members and the case of digits are free, and nothing else is.

## Main definitions

* `Envelope.IsDocument`, `VoteExtension.IsDocument`, `Aggregate.IsDocument`: the documents that
  denote a record;
* `StrictReader`: a reader that accepts the documents of a grammar, each as what it denotes, and
  refuses all other bytes as malformed.

## Main results

* `records_read_strictly`: the readers of the three records are strict.
-/

namespace SecondFactor

open Json (IsRecord Spells)

/-! ## Forms -/

namespace Envelope

/-- The forms of an envelope as it is sent, with a recovery byte or without. -/
def IsForm (envelope : Envelope) (j : Json) : Prop :=
  ∃ publicKey signature,
    Hex.Denotes publicKey envelope.publicKey ∧ Hex.Denotes signature envelope.signature ∧
      IsRecord [("public_key", .string publicKey), ("signature", .string signature)] j

/-- An envelope as it is read: of a signature of 65 bytes the last one is cut off. -/
def normalized (sent : Envelope) : Envelope where
  publicKey := sent.publicKey
  signature := if sent.signature.length = 65 then sent.signature.take 64 else sent.signature

/-- The documents that an envelope is read from. -/
def IsDocument (envelope : Envelope) (b : Bytes) : Prop :=
  ∃ (sent : Envelope) (j : Json), sent.IsForm j ∧ Spells j b ∧ sent.normalized = envelope

end Envelope

namespace VoteExtension

/-- The forms of the extension of a vote. -/
def IsForm (extension : VoteExtension) (j : Json) : Prop :=
  ∃ signature, Hex.Denotes signature extension.signature ∧
    IsRecord [("signature", .string signature)] j

/-- The documents of the extension of a vote, which has to have a signature. -/
def IsDocument (extension : VoteExtension) (b : Bytes) : Prop :=
  extension.signature ≠ [] ∧ ∃ j, extension.IsForm j ∧ Spells j b

end VoteExtension

/-- The forms of an entry. The validator is given by 40 digits. -/
def AggregateEntry.IsForm (entry : AggregateEntry) (j : Json) : Prop :=
  ∃ validator signature, validator.length = 40 ∧
    Hex.Denotes validator entry.validator.bytes ∧ Hex.Denotes signature entry.signature ∧
      IsRecord [("validator", .string validator), ("signature", .string signature)] j

namespace Aggregate

/-- The forms of an aggregate. -/
def IsForm (aggregate : Aggregate) (j : Json) : Prop :=
  ∃ entries, List.Forall₂ AggregateEntry.IsForm aggregate.entries entries ∧
    IsRecord [("entries", .array entries)] j

/-- The documents of an aggregate. -/
def IsDocument (aggregate : Aggregate) (b : Bytes) : Prop :=
  ∃ j, aggregate.IsForm j ∧ Spells j b

end Aggregate

/-! ## What is read from a form -/

section Forms

variable {j : Json}

theorem FixedBytes.ofJson?_eq_some_iff {size : Nat} {bytes : FixedBytes size} :
    (Wire.ofJson? j : Option (FixedBytes size)) = some bytes ↔ j.hex? = some bytes.bytes := by
  have hread : (Wire.ofJson? j : Option (FixedBytes size)) = j.hex?.bind (ofBytes? size) := by
    simp only [Wire.ofJson?]
    cases j.hex? <;> rfl
  rw [hread, Option.bind_eq_some_iff]
  simp [ofBytes?_eq_some_iff]

theorem Envelope.ofJson?_eq_some_iff {envelope : Envelope} :
    (Wire.ofJson? j : Option Envelope) = some envelope ↔ envelope.IsForm j := by
  refine (Json.pair?_eq_some_iff (by decide)).trans ?_
  simp only [Json.hex?_eq_some_iff, Envelope.IsForm]
  constructor
  · rintro ⟨_, _, _, _, hrecord, ⟨publicKey, rfl, hkey⟩, ⟨signature, rfl, hsig⟩, rfl⟩
    exact ⟨publicKey, signature, hkey, hsig, hrecord⟩
  · rintro ⟨publicKey, signature, hkey, hsig, hrecord⟩
    exact ⟨_, _, _, _, hrecord, ⟨publicKey, rfl, hkey⟩, ⟨signature, rfl, hsig⟩, rfl⟩

theorem VoteExtension.ofJson?_eq_some_iff {extension : VoteExtension} :
    (Wire.ofJson? j : Option VoteExtension) = some extension ↔ extension.IsForm j := by
  refine Json.single?_eq_some_iff.trans ?_
  simp only [Json.hex?_eq_some_iff, VoteExtension.IsForm]
  constructor
  · rintro ⟨_, _, hrecord, ⟨signature, rfl, hsig⟩, rfl⟩
    exact ⟨signature, hsig, hrecord⟩
  · rintro ⟨signature, hsig, hrecord⟩
    exact ⟨_, _, hrecord, ⟨signature, rfl, hsig⟩, rfl⟩

theorem AggregateEntry.ofJson?_eq_some_iff {entry : AggregateEntry} :
    (Wire.ofJson? j : Option AggregateEntry) = some entry ↔ entry.IsForm j := by
  refine (Json.pair?_eq_some_iff (by decide)).trans ?_
  simp only [FixedBytes.ofJson?_eq_some_iff, Json.hex?_eq_some_iff, AggregateEntry.IsForm]
  constructor
  · rintro ⟨_, _, _, _, hrecord, ⟨validator, rfl, haddress⟩, ⟨signature, rfl, hsig⟩, rfl⟩
    refine ⟨validator, signature, ?_, haddress, hsig, hrecord⟩
    rw [haddress.length_eq, FixedBytes.length_eq]
  · rintro ⟨validator, signature, -, haddress, hsig, hrecord⟩
    exact ⟨_, _, _, _, hrecord, ⟨validator, rfl, haddress⟩, ⟨signature, rfl, hsig⟩, rfl⟩

theorem Aggregate.ofJson?_eq_some_iff {aggregate : Aggregate} :
    (Wire.ofJson? j : Option Aggregate) = some aggregate ↔ aggregate.IsForm j := by
  have hlist {j : Json} {entries : List AggregateEntry} :
      (Wire.ofJson? j : Option (List AggregateEntry)) = some entries ↔
        ∃ elements, j = .array elements ∧ List.Forall₂ AggregateEntry.IsForm entries elements := by
    refine Json.list?_eq_some_iff.trans ?_
    simp only [AggregateEntry.ofJson?_eq_some_iff]
  refine Json.single?_eq_some_iff.trans ?_
  simp only [hlist, Aggregate.IsForm]
  constructor
  · rintro ⟨_, _, hrecord, ⟨entries, rfl, hentries⟩, rfl⟩
    exact ⟨entries, hentries, hrecord⟩
  · rintro ⟨entries, hentries, hrecord⟩
    exact ⟨_, _, hrecord, ⟨entries, rfl, hentries⟩, rfl⟩

end Forms

/-- A record is read from the spellings of its forms. -/
theorem Wire.read?_eq_some_iff {α : Type} [Wire α] {b : Bytes} {a : α} :
    (Wire.read? b : Option α) = some a ↔ ∃ j, Wire.ofJson? j = some a ∧ Spells j b := by
  simp only [← Json.read?_eq_some_iff, Wire.read?]
  cases Json.read? b <;> simp

/-! ## What is read from a document -/

/-- Bytes that are refused because they are no document of the record expected. -/
def Malformed {α : Type} (result : Except Error α) : Prop :=
  ∃ fault, result = .error (.malformedEnvelope fault)

namespace Envelope

theorem decode_eq_ok_iff {b : Bytes} {envelope : Envelope} :
    decode b = .ok envelope ↔ envelope.IsDocument b := by
  have hread : decode b = .ok envelope ↔
      ∃ sent : Envelope, (Wire.read? b : Option Envelope) = some sent ∧
        sent.normalized = envelope := by
    unfold decode
    split
    · next hnil =>
      subst hnil
      exact iff_of_false nofun nofun
    · cases (Wire.read? b : Option Envelope) with
      | none => simp
      | some sent => simp [normalized, Signature.stripRecoveryByte]
  rw [hread]
  simp only [Wire.read?_eq_some_iff, Envelope.ofJson?_eq_some_iff, IsDocument]
  constructor
  · rintro ⟨sent, ⟨j, hform, hspells⟩, rfl⟩
    exact ⟨sent, j, hform, hspells, rfl⟩
  · rintro ⟨sent, j, hform, hspells, rfl⟩
    exact ⟨sent, ⟨j, hform, hspells⟩, rfl⟩

theorem malformed_or_ok (b : Bytes) :
    (∃ envelope, decode b = .ok envelope) ∨ Malformed (decode b) := by
  unfold decode
  split
  · exact .inr ⟨_, rfl⟩
  · cases (Wire.read? b : Option Envelope) with
    | none => exact .inr ⟨_, rfl⟩
    | some envelope => exact .inl ⟨_, rfl⟩

end Envelope

namespace VoteExtension

theorem decode_eq_ok_iff {b : Bytes} {extension : VoteExtension} :
    decode b = .ok extension ↔ extension.IsDocument b := by
  have hread : decode b = .ok extension ↔
      extension.signature ≠ [] ∧ (Wire.read? b : Option VoteExtension) = some extension := by
    unfold decode
    cases (Wire.read? b : Option VoteExtension) with
    | none => simp
    | some read =>
      dsimp only
      split
      · next hnil =>
        refine iff_of_false nofun ?_
        rintro ⟨hne, ⟨⟩⟩
        exact hne hnil
      · next hne =>
        constructor
        · rintro ⟨⟩
          exact ⟨hne, rfl⟩
        · rintro ⟨-, ⟨⟩⟩
          rfl
  rw [hread, Wire.read?_eq_some_iff, IsDocument]
  simp only [VoteExtension.ofJson?_eq_some_iff]

theorem malformed_or_ok (b : Bytes) :
    (∃ extension, decode b = .ok extension) ∨ Malformed (decode b) := by
  unfold decode
  cases (Wire.read? b : Option VoteExtension) with
  | none => exact .inr ⟨_, rfl⟩
  | some extension =>
    dsimp only
    split
    · exact .inr ⟨_, rfl⟩
    · exact .inl ⟨_, rfl⟩

end VoteExtension

namespace Aggregate

theorem decode_eq_ok_iff {b : Bytes} {aggregate : Aggregate} :
    decode b = .ok aggregate ↔ aggregate.IsDocument b := by
  have hread : decode b = .ok aggregate ↔
      (Wire.read? b : Option Aggregate) = some aggregate := by
    unfold decode
    cases (Wire.read? b : Option Aggregate) <;> simp
  rw [hread, Wire.read?_eq_some_iff, IsDocument]
  simp only [Aggregate.ofJson?_eq_some_iff]

theorem malformed_or_ok (b : Bytes) :
    (∃ aggregate, decode b = .ok aggregate) ∨ Malformed (decode b) := by
  unfold decode
  cases (Wire.read? b : Option Aggregate) with
  | none => exact .inr ⟨_, rfl⟩
  | some aggregate => exact .inl ⟨_, rfl⟩

end Aggregate

/-! ## Strict readers -/

/-- The members of an object are not just those named, each once. -/
def Misnamed (names : List String) (members : List (Bytes × Json)) : Prop :=
  (∃ member ∈ members, member.1 ∉ names.map Text.utf8) ∨ ¬(members.map Prod.fst).Nodup

/-- The reader of a record whose fields have the given names is strict about its documents. -/
structure StrictReader {α : Type} (names : List String) (decode : Bytes → Except Error α)
    (IsDocument : α → Bytes → Prop) (IsWritten : Bytes → Prop) : Prop where
  /-- It accepts the documents, each as what it denotes, and no other bytes. -/
  decode_eq_ok_iff : ∀ b a, decode b = .ok a ↔ IsDocument a b
  /-- All other bytes are malformed. -/
  malformed : ∀ b, (∀ a, ¬IsDocument a b) → Malformed (decode b)
  /-- So is what is written, if the end is missing. -/
  malformed_start : ∀ start rest, IsWritten (start ++ rest) → rest ≠ [] → Malformed (decode start)
  /-- So is what is written, if more than blanks stand behind it. -/
  malformed_append : ∀ b tail, IsWritten b → (∃ c ∈ tail, Json.isBlank c = false) →
    Malformed (decode (b ++ tail))
  /-- So is an object with a member of another name or with two of one name. -/
  malformed_misnamed : ∀ members b, Spells (.object members) b → Misnamed names members →
    Malformed (decode b)

/-- The members of a record whose fields have different names are not misnamed. -/
theorem Json.IsRecord.not_misnamed {fields : List (String × Json)}
    {members : List (Bytes × Json)} (hnodup : (fields.map Prod.fst).Nodup)
    (h : IsRecord fields (.object members)) : ¬Misnamed (fields.map Prod.fst) members := by
  have hnames := h.perm_names
  rintro (⟨member, hmember, hunknown⟩ | hrepeated)
  · exact hunknown (hnames.mem_iff.1 (List.mem_map_of_mem hmember))
  · exact hrepeated (hnames.nodup_iff.2 (hnodup.map fun _ _ => Text.utf8_injective))

/-- A reader is strict if it reads the spellings of the forms of a record and writes objects. -/
theorem StrictReader.of_iff {α : Type} {names : List String} {decode : Bytes → Except Error α}
    {IsDocument : α → Bytes → Prop} {IsWritten : Bytes → Prop}
    (hiff : ∀ b a, decode b = .ok a ↔ IsDocument a b)
    (hdecode : ∀ b, (∃ a, decode b = .ok a) ∨ Malformed (decode b))
    (hspells : ∀ a b, IsDocument a b → ∃ j, Spells j b ∧
      ∀ members, j = .object members → ¬Misnamed names members)
    (hwritten : ∀ b, IsWritten b →
      ∃ members, (Json.object members).Plain ∧ b = (Json.object members).write) :
    StrictReader names decode IsDocument IsWritten where
  decode_eq_ok_iff := hiff
  malformed b h := (hdecode b).resolve_left fun ⟨a, ha⟩ => h a ((hiff b a).1 ha)
  malformed_start start rest h hrest := by
    refine (hdecode start).resolve_left fun ⟨a, ha⟩ => ?_
    obtain ⟨j, hj, -⟩ := hspells a start ((hiff start a).1 ha)
    obtain ⟨members, hplain, hwrite⟩ := hwritten _ h
    exact Json.not_spells_of_write_eq hplain hwrite.symm hrest j hj
  malformed_append b tail h htail := by
    refine (hdecode _).resolve_left fun ⟨a, ha⟩ => ?_
    obtain ⟨j, hj, -⟩ := hspells a _ ((hiff _ a).1 ha)
    obtain ⟨members, hplain, rfl⟩ := hwritten b h
    obtain ⟨c, hc, hblank⟩ := htail
    refine Json.not_spells_write_append hplain (fun hblanks => ?_) j hj
    exact Bool.false_ne_true (hblank.symm.trans (hblanks c hc))
  malformed_misnamed members b hb hmisnamed := by
    refine (hdecode b).resolve_left fun ⟨a, ha⟩ => ?_
    obtain ⟨j, hj, hnames⟩ := hspells a b ((hiff b a).1 ha)
    exact hnames members (hj.unique hb) hmisnamed

/-! ## The three records -/

theorem Envelope.strict : StrictReader ["public_key", "signature"] decode IsDocument
    fun b => ∃ envelope : Envelope, envelope.encode = .ok b := by
  refine .of_iff (fun _ _ => decode_eq_ok_iff) malformed_or_ok ?_ ?_
  · rintro envelope b ⟨sent, j, ⟨publicKey, signature, -, -, hrecord⟩, hspells, -⟩
    refine ⟨j, hspells, ?_⟩
    rintro members rfl
    exact hrecord.not_misnamed (by simp)
  · rintro b ⟨envelope, h⟩
    unfold encode at h
    split at h <;> cases h
    exact ⟨_, LawfulWire.plain_toJson envelope, rfl⟩

theorem VoteExtension.strict : StrictReader ["signature"] decode IsDocument
    fun b => ∃ extension : VoteExtension, extension.encode = b := by
  refine .of_iff (fun _ _ => decode_eq_ok_iff) malformed_or_ok ?_ ?_
  · rintro extension b ⟨-, j, ⟨signature, -, hrecord⟩, hspells⟩
    refine ⟨j, hspells, ?_⟩
    rintro members rfl
    exact hrecord.not_misnamed (by simp)
  · rintro b ⟨extension, rfl⟩
    exact ⟨_, LawfulWire.plain_toJson extension, rfl⟩

theorem Aggregate.strict : StrictReader ["entries"] decode IsDocument
    fun b => ∃ aggregate : Aggregate, aggregate.encode = b := by
  refine .of_iff (fun _ _ => decode_eq_ok_iff) malformed_or_ok ?_ ?_
  · rintro aggregate b ⟨j, ⟨entries, -, hrecord⟩, hspells⟩
    refine ⟨j, hspells, ?_⟩
    rintro members rfl
    exact hrecord.not_misnamed (by simp)
  · rintro b ⟨aggregate, rfl⟩
    exact ⟨_, LawfulWire.plain_toJson aggregate, rfl⟩

/-- An aggregate is malformed if one of its entries is. -/
theorem Aggregate.malformed_of_entry {entries : List Json} {j entry : Json} {b : Bytes}
    (hrecord : IsRecord [("entries", .array entries)] j) (hspells : Spells j b)
    (hmem : entry ∈ entries) (hentry : ∀ read : AggregateEntry, ¬read.IsForm entry) :
    Malformed (decode b) := by
  refine (malformed_or_ok b).resolve_left fun ⟨aggregate, h⟩ => ?_
  obtain ⟨j', ⟨entries', hentries, hrecord'⟩, hspells'⟩ := decode_eq_ok_iff.1 h
  obtain rfl := hspells.unique hspells'
  have hvalues := hrecord.values_eq hrecord' rfl (by simp)
  obtain rfl : entries = entries' := by simpa using hvalues
  obtain ⟨hlength, hforms⟩ := List.forall₂_iff_get.1 hentries
  obtain ⟨i, hi, hget⟩ := List.getElem_of_mem hmem
  have hform := hforms i (hlength ▸ hi) hi
  rw [List.get_eq_getElem, List.get_eq_getElem, hget] at hform
  exact hentry _ hform

/-- An object with misnamed members is no entry. -/
theorem AggregateEntry.not_isForm_of_misnamed {members : List (Bytes × Json)}
    (h : Misnamed ["validator", "signature"] members) (entry : AggregateEntry) :
    ¬entry.IsForm (.object members) := by
  rintro ⟨validator, signature, -, -, -, hrecord⟩
  exact hrecord.not_misnamed (by simp) h

/-- The readers of envelopes, vote extensions and aggregates accept exactly the documents of their
records, whose values are strings of an even number of digits of either case, and refuse everything
else as malformed; in an aggregate this holds for its entries as well. -/
theorem records_read_strictly :
    (∀ digits, (∃ b, Hex.Denotes digits b) ↔
      digits.length % 2 = 0 ∧ ∀ d ∈ digits, Hex.IsDigit d) ∧
    StrictReader ["public_key", "signature"] Envelope.decode Envelope.IsDocument
      (fun b => ∃ envelope : Envelope, envelope.encode = .ok b) ∧
    StrictReader ["signature"] VoteExtension.decode VoteExtension.IsDocument
      (fun b => ∃ extension : VoteExtension, extension.encode = b) ∧
    StrictReader ["entries"] Aggregate.decode Aggregate.IsDocument
      (fun b => ∃ aggregate : Aggregate, aggregate.encode = b) ∧
    ∀ entries j b members, IsRecord [("entries", .array entries)] j → Spells j b →
      .object members ∈ entries → Misnamed ["validator", "signature"] members →
        Malformed (Aggregate.decode b) :=
  ⟨fun _ => Hex.exists_denotes_iff, Envelope.strict, VoteExtension.strict, Aggregate.strict,
    fun _ _ _ _ hrecord hspells hmem hmisnamed =>
      Aggregate.malformed_of_entry hrecord hspells hmem
        (AggregateEntry.not_isForm_of_misnamed hmisnamed)⟩

/-- An envelope with blanks, an escaped name, upper-case digits and its members in the other order
is accepted; an aggregate with a member of another name in an entry is malformed. -/
theorem records_read_spelled :
    Envelope.decode (Text.utf8
      " \x7b\"signature\":\"Ff\" , \"public\\u005fkey\":\"0A\"\x7d ") = .ok ⟨[0x0A], [0xFF]⟩ ∧
    Malformed (Aggregate.decode (Text.utf8
      "[[\x7b\"validator\":\"\",\"signature\":\"\",\"power\":1\x7d]]")) := by
  obtain ⟨-, henvelope, -, -, hentry⟩ := records_read_strictly
  constructor
  · -- The parts of the document are those of an envelope, in the order in which they stand.
    let publicKey := Json.string (Text.utf8 "0A")
    let signature := Json.string (Text.utf8 "Ff")
    have hrecord : IsRecord [("public_key", publicKey), ("signature", signature)]
        (.object [(Text.utf8 "signature", signature), (Text.utf8 "public_key", publicKey)]) :=
      .object (List.Perm.swap _ _ _)
    have hform : (⟨[0x0A], [0xFF]⟩ : Envelope).IsForm
        (.object [(Text.utf8 "signature", signature), (Text.utf8 "public_key", publicKey)]) :=
      ⟨Text.utf8 "0A", Text.utf8 "Ff", by decide, by decide, hrecord⟩
    have hspells := Json.read?_eq_some_iff.1 (rfl : Json.read? (Text.utf8
      " \x7b\"signature\":\"Ff\" , \"public\\u005fkey\":\"0A\"\x7d ") =
        some (.object [(Text.utf8 "signature", signature), (Text.utf8 "public_key", publicKey)]))
    exact (henvelope.decode_eq_ok_iff _ _).2 ⟨_, _, hform, hspells, rfl⟩
  · -- The entry is an object with a member that no entry has.
    let power := (Text.utf8 "power", Json.number (Text.utf8 "1"))
    let entry :=
      [(Text.utf8 "validator", Json.string []), (Text.utf8 "signature", .string []), power]
    have hspells := Json.read?_eq_some_iff.1 (rfl : Json.read? (Text.utf8
      "[[\x7b\"validator\":\"\",\"signature\":\"\",\"power\":1\x7d]]") =
        some (.array [.array [.object entry]]))
    refine hentry [.object entry] _ _ entry .array hspells List.mem_cons_self (.inl ?_)
    exact ⟨power, by simp [entry], by decide⟩

end SecondFactor
