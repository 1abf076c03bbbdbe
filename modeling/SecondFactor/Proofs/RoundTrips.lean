import SecondFactor.Proofs.Documents
import SecondFactor.Proofs.Gate
import SecondFactor.Proofs.MemoPrefix

/-!
# Round Trips

What comes back when a record is written and read again: vote extensions and aggregates as they are,
envelopes without a recovery byte, and from memos what comes back from their documents.

## Main results

* `Envelope.write_eq_utf8`: the document of an envelope is text, so it can stand in a memo;
* `Envelope.round_trips`: an envelope with bytes in both fields comes back from its document and
  from its memo, and what has been read stays as it is;
* `payloads_round_trip`: extensions and aggregates come back byte by byte.
-/

namespace SecondFactor

open Json (IsRecord Spells)

/-! ## Text -/

namespace Text

/-- An ASCII character is its own code. -/
theorem utf8_singleton : ∀ n < 128,
    utf8 (String.singleton (Char.ofUInt8 (UInt8.ofNat n))) = [UInt8.ofNat n] := by
  decide

/-- A text of ASCII characters is the list of their codes. -/
theorem utf8_ofList {b : Bytes} (h : ∀ c ∈ b, c.toNat < 128) :
    utf8 (String.ofList (b.map Char.ofUInt8)) = b := by
  induction b with
  | nil => rfl
  | cons c b ih =>
    obtain ⟨hc, hb⟩ := List.forall_mem_cons.1 h
    have hsplit : String.ofList ((c :: b).map Char.ofUInt8) =
        String.singleton (Char.ofUInt8 c) ++ String.ofList (b.map Char.ofUInt8) := by
      simp
    have hsingle := utf8_singleton c.toNat hc
    rw [UInt8.ofNat_toNat] at hsingle
    rw [hsplit, utf8_append, hsingle, ih hb]
    rfl

end Text

namespace Hex

/-- The digits of a byte string as text are the digits. -/
theorem utf8_text (b : Bytes) : Text.utf8 (text b) = encode b :=
  Text.utf8_ofList (forall_mem_encode (by decide) b)

/-- Digits are written in a string as they stand. -/
theorem quote_encode (b : Bytes) :
    Json.quote (encode b) = Json.byte '"' :: encode b ++ [Json.byte '"'] := by
  have hescape : ∀ d ∈ encode b, Json.escape d = [d] := forall_mem_encode (by decide) b
  rw [Json.quote, List.flatMap_congr hescape, List.flatMap_singleton']

end Hex

/-! ## Envelopes -/

namespace Envelope

/-- The document of an envelope as text. -/
def documentText (envelope : Envelope) : String :=
  "\x7b\"public_key\":\"" ++ Hex.text envelope.publicKey ++ "\",\"signature\":\"" ++
    Hex.text envelope.signature ++ "\"\x7d"

/-- The document of an envelope is text. -/
theorem write_eq_utf8 (envelope : Envelope) :
    Wire.write envelope = Text.utf8 envelope.documentText := by
  have hopen : Text.utf8 "\x7b\"public_key\":\"" = Json.byte '\x7b' ::
      Json.quote (Text.utf8 "public_key") ++ [Json.byte ':', Json.byte '"'] := by
    decide
  have hbetween : Text.utf8 "\",\"signature\":\"" = Json.byte '"' :: Json.byte ',' ::
      Json.quote (Text.utf8 "signature") ++ [Json.byte ':', Json.byte '"'] := by
    decide
  have hclose : Text.utf8 "\"\x7d" = [Json.byte '"', Json.byte '\x7d'] := by
    decide
  have happend (a b c d e : String) : Text.utf8 (a ++ b ++ c ++ d ++ e) =
      Text.utf8 a ++ Text.utf8 b ++ Text.utf8 c ++ Text.utf8 d ++ Text.utf8 e := by
    simp
  refine Eq.trans ?_ (happend _ _ _ _ _).symm
  rw [write_eq, Hex.quote_encode, Hex.quote_encode, Hex.utf8_text, Hex.utf8_text, hopen, hbetween,
    hclose]
  simp

/-- What has been read has no recovery byte. -/
theorem length_normalized (sent : Envelope) : sent.normalized.signature.length ≠ 65 := by
  unfold normalized
  dsimp only
  split
  · rw [List.length_take]
    omega
  · next h => exact h

/-- Without a recovery byte an envelope is read as it is. -/
theorem normalized_eq {envelope : Envelope} (h : envelope.signature.length ≠ 65) :
    envelope.normalized = envelope := by
  rw [normalized, if_neg h]

/-- A valid envelope has a document, from which it is read. -/
theorem encode_of_validate {envelope : Envelope} (h : envelope.validate = .ok ()) :
    envelope.encode = .ok (Wire.write envelope) ∧
      decode (Wire.write envelope) = .ok envelope.normalized := by
  rw [encode, h]
  exact ⟨rfl, envelope.decode_write⟩

/-- A valid envelope has a memo behind any prefix, in which it is found. -/
theorem toMemo_of_validate {envelope : Envelope} (h : envelope.validate = .ok ())
    (memoPrefix : String) : ∃ memo, envelope.toMemo memoPrefix = .ok memo ∧
      ofMemo memoPrefix memo = .ok (some envelope.normalized) := by
  obtain ⟨hencode, hdecode⟩ := encode_of_validate h
  rw [write_eq_utf8] at hencode hdecode
  refine ⟨memoPrefix ++ envelope.documentText, ?_, ?_⟩
  · rw [toMemo, hencode]
    simp only [Text.ofUtf8?_utf8]
  · rw [Authentication.ofMemo_append, hdecode]
    rfl

/-- An envelope with bytes in both fields comes back from its document, and with any prefix from its
memo, without a recovery byte. What has been read from any document has no recovery byte, and comes
back unchanged if it is valid. Only an envelope with an empty field has no document. -/
theorem round_trips :
    (∀ (envelope : Envelope) (memoPrefix : String),
      envelope.publicKey ≠ [] → envelope.signature ≠ [] →
        (∃ b, envelope.encode = .ok b ∧ decode b = .ok envelope.normalized) ∧
        ∃ memo, envelope.toMemo memoPrefix = .ok memo ∧
          ofMemo memoPrefix memo = .ok (some envelope.normalized)) ∧
    (∀ (b : Bytes) (envelope : Envelope), decode b = .ok envelope →
      envelope.signature.length ≠ 65 ∧
        (envelope.validate = .ok () →
          ∃ b', envelope.encode = .ok b' ∧ decode b' = .ok envelope)) ∧
    ∀ envelope : Envelope,
      (∃ e, envelope.encode = .error e) ↔ envelope.publicKey = [] ∨ envelope.signature = [] := by
  refine ⟨fun envelope memoPrefix hkey hsignature => ?_, fun b envelope h => ?_, fun envelope => ?_⟩
  · have hvalid := validate_eq_ok_iff.2 ⟨hkey, hsignature⟩
    exact ⟨⟨_, encode_of_validate hvalid⟩, toMemo_of_validate hvalid memoPrefix⟩
  · obtain ⟨sent, j, -, -, rfl⟩ := decode_eq_ok_iff.1 h
    refine ⟨sent.length_normalized, fun hvalid => ?_⟩
    obtain ⟨hencode, hdecode⟩ := encode_of_validate hvalid
    rw [normalized_eq sent.length_normalized] at hdecode
    exact ⟨_, hencode, hdecode⟩
  · constructor
    · rintro ⟨e, he⟩
      by_contra hfields
      have hvalid := validate_eq_ok_iff.2 (not_or.1 hfields)
      rw [(encode_of_validate hvalid).1] at he
      cases he
    · intro hfields
      cases hvalid : envelope.validate with
      | error e => exact ⟨e, by rw [encode, hvalid]⟩
      | ok _ => exact absurd hfields (not_or.2 (validate_eq_ok_iff.1 hvalid))

/-- A signature of 65 bytes comes back with 64 of them; the array of two strings is read, and comes
back as the object. -/
theorem round_trips_recoverable :
    (∃ memo, toMemo "SECONDARY" ⟨[0x04], List.replicate 65 0x1B⟩ = .ok memo ∧
      ofMemo "SECONDARY" memo = .ok (some ⟨[0x04], List.replicate 64 0x1B⟩)) ∧
    decode (Text.utf8 "[\"0A\", \"ff\"]") = .ok ⟨[0x0A], [0xFF]⟩ ∧
    ∃ b, encode ⟨[0x0A], [0xFF]⟩ = .ok b ∧ decode b = .ok ⟨[0x0A], [0xFF]⟩ := by
  obtain ⟨hsent, hread, -⟩ := round_trips
  have hdecode : decode (Text.utf8 "[\"0A\", \"ff\"]") = .ok ⟨[0x0A], [0xFF]⟩ := rfl
  refine ⟨?_, hdecode, (hread _ _ hdecode).2 rfl⟩
  exact (hsent ⟨[0x04], List.replicate 65 0x1B⟩ "SECONDARY" (by decide) (by decide)).2

end Envelope

/-! ## Vote extensions and aggregates -/

/-- Every aggregate comes back from its document, and so does every vote extension that has a
signature, with all bytes of it. What has been read from any document comes back unchanged; an
extension that has been read has a signature, and the validator of an entry has 20 bytes, since a
validator with another number of digits is malformed. -/
theorem payloads_round_trip :
    (∀ aggregate : Aggregate, Aggregate.decode aggregate.encode = .ok aggregate) ∧
    (∀ extension : VoteExtension, extension.signature ≠ [] →
      VoteExtension.decode extension.encode = .ok extension) ∧
    (∀ (b : Bytes) (aggregate : Aggregate), Aggregate.decode b = .ok aggregate →
      Aggregate.decode aggregate.encode = .ok aggregate ∧
        ∀ entry ∈ aggregate.entries, entry.validator.bytes.length = 20) ∧
    (∀ (b : Bytes) (extension : VoteExtension), VoteExtension.decode b = .ok extension →
      VoteExtension.decode extension.encode = .ok extension ∧ extension.signature ≠ []) ∧
    ∀ entries entry j b validator signature, IsRecord [("entries", .array entries)] j →
      Spells j b → entry ∈ entries →
      IsRecord [("validator", .string validator), ("signature", .string signature)] entry →
        validator.length ≠ 40 → Malformed (Aggregate.decode b) := by
  refine ⟨Aggregate.decode_encode, fun _ => VoteExtension.decode_encode, fun b aggregate _ => ?_,
    fun b extension h => ?_, ?_⟩
  · exact ⟨aggregate.decode_encode, fun entry _ => entry.validator.length_eq⟩
  · obtain ⟨hne, -⟩ := VoteExtension.decode_eq_ok_iff.1 h
    exact ⟨VoteExtension.decode_encode hne, hne⟩
  · intro entries entry j b validator signature hrecord hspells hmem hentry hlength
    refine Aggregate.malformed_of_entry hrecord hspells hmem ?_
    rintro read ⟨validator', signature', hlength', -, -, hentry'⟩
    have hvalues := hentry.values_eq hentry' rfl (by simp)
    obtain ⟨rfl, -⟩ : validator = validator' ∧ signature = signature' := by simpa using hvalues
    exact hlength hlength'

/-- A signature of a vote keeps its recovery byte; an aggregate is read from an array of arrays; a
validator without digits is malformed. -/
theorem payloads_round_trip_recoverable :
    VoteExtension.decode (VoteExtension.encode ⟨List.replicate 65 0x1B⟩) =
      .ok ⟨List.replicate 65 0x1B⟩ ∧
    Aggregate.decode (Text.utf8 "[[]]") = .ok ⟨[]⟩ ∧
    Aggregate.decode (Aggregate.encode ⟨[]⟩) = .ok ⟨[]⟩ ∧
    Malformed (Aggregate.decode (Text.utf8 "[[[\"\",\"aa\"]]]")) := by
  obtain ⟨-, hextension, haggregate, -, hvalidator⟩ := payloads_round_trip
  have hdecode : Aggregate.decode (Text.utf8 "[[]]") = .ok ⟨[]⟩ := rfl
  refine ⟨hextension _ (by decide), hdecode, (haggregate _ _ hdecode).1, ?_⟩
  let entry := Json.array [.string [], .string (Text.utf8 "aa")]
  have hspells := Json.read?_eq_some_iff.1
    (rfl : Json.read? (Text.utf8 "[[[\"\",\"aa\"]]]") = some (.array [.array [entry]]))
  exact hvalidator [entry] entry _ _ [] (Text.utf8 "aa") .array hspells List.mem_cons_self .array
    (by decide)

end SecondFactor
