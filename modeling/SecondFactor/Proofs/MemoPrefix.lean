import SecondFactor.Proofs.Accounts
import SecondFactor.Proofs.Hex
import SecondFactor.Proofs.Proposal.Prepare

/-!
# The Memo Prefix of Registrations

A registration carries an envelope with the memo prefix in front of it or without. Whether the
prefix stands there is decided by the bytes alone, and the document of an envelope is an object of
strings, which a prefix may agree with.

## Main results

* `Json.fields?_of_unopened`: where no bracket opens an array or an object, no record is read;
* `Envelope.exists_write_eq_cons`: the document of an envelope opens one at its start and nowhere
  else, so nothing that is left of it is an envelope;
* `Registration.prefix_optional_iff`: a registration with the prefix and one without it come to the
  same exactly if the document itself does not start with the prefix.
-/

namespace SecondFactor

namespace Json

/-! ## Documents that open nothing -/

/-- The characters that arrays and objects start with. -/
def isOpening (c : UInt8) : Bool :=
  c == byte '[' || c == byte '\x7b'

/-- No array and no object starts in a document, not even as text in a string. -/
def Unopened (b : Bytes) : Prop :=
  ∀ c ∈ b, isOpening c = false

instance (b : Bytes) : Decidable (Unopened b) :=
  List.decidableBAll (fun c => isOpening c = false) b

@[simp] theorem unopened_nil : Unopened [] := by
  simp [Unopened]

@[simp] theorem unopened_cons {c : UInt8} {b : Bytes} :
    Unopened (c :: b) ↔ isOpening c = false ∧ Unopened b := by
  simp [Unopened]

@[simp] theorem unopened_append {b b' : Bytes} :
    Unopened (b ++ b') ↔ Unopened b ∧ Unopened b' := by
  simp [Unopened, or_imp, forall_and]

/-- What is read from such a document is no array and no object, so it has no fields. -/
theorem fields?_of_value? {fuel : Nat} {b rest : Bytes} {v : Json} (hb : Unopened b)
    (hv : value? fuel b = some (v, rest)) (names : List String) (rules : RecordRules) :
    fields? names rules v = none := by
  cases fuel with
  | zero => rw [value?] at hv; cases hv
  | succ fuel =>
    rw [value?] at hv
    split at hv
    · cases hv
    · next c tail hskip =>
      -- The first character behind the blanks opens nothing.
      have hmem : c ∈ skipBlanks b := hskip ▸ List.mem_cons_self
      have hc := hb c ((List.dropWhile_sublist isBlank).subset hmem)
      simp only [isOpening, Bool.or_eq_false_iff, beq_eq_false_iff_ne] at hc
      rw [if_neg hc.1, if_neg hc.2] at hv
      -- Behind it only a string, a word or a number is read.
      unfold word? at hv
      iterate 4
        split at hv
        · split at hv <;> cases hv
          rfl
      split at hv <;> cases hv
      rfl

/-- Where nothing opens an array or an object, no record is read. -/
theorem fields?_of_unopened {b : Bytes} {v : Json} (hb : Unopened b) (hv : read? b = some v)
    (names : List String) (rules : RecordRules) : fields? names rules v = none := by
  unfold read? at hv
  split at hv
  · next value rest hvalue =>
    split at hv <;> cases hv
    exact fields?_of_value? hb hvalue names rules
  · cases hv

/-! ## Strings -/

/-- Hexadecimal digits open nothing. -/
theorem unopened_encode (b : Bytes) : Unopened (Hex.encode b) :=
  Hex.forall_mem_encode (by decide) b

/-- A byte that opens nothing does not do so in its written form either. -/
theorem unopened_escape {b : UInt8} (h : isOpening b = false) : Unopened (escape b) := by
  unfold escape
  iterate 7
    split
    · decide
  split
  · -- A control character is written with digits.
    have hfixed : Unopened [byte '\\', byte 'u', byte '0', byte '0'] := by decide
    exact unopened_append.2 ⟨hfixed, unopened_encode [b]⟩
  · simp [h]

/-- A string opens something only if its content does. -/
theorem unopened_quote {content : Bytes} (h : Unopened content) : Unopened (quote content) := by
  have hmark : isOpening (byte '"') = false := by decide
  have hescape : Unopened (content.flatMap escape) := by
    intro c hc
    obtain ⟨b, hb, hcb⟩ := List.mem_flatMap.1 hc
    exact unopened_escape (h b hb) c hcb
  simp [quote, hmark, hescape]

end Json

namespace Envelope

open Json (Unopened byte quote unopened_quote unopened_encode)

/-- The document of an envelope is an object of two strings. -/
theorem write_eq (envelope : Envelope) :
    Wire.write envelope = byte '\x7b' ::
      (quote (Text.utf8 "public_key") ++ byte ':' :: (quote (Hex.encode envelope.publicKey) ++
        byte ',' :: (quote (Text.utf8 "signature") ++ byte ':' ::
          quote (Hex.encode envelope.signature))) ++ [byte '\x7d']) := by
  simp only [Wire.write, Wire.toJson, Json.ofFields, List.map, Json.ofHex, Json.write,
    Json.writeMembers]

/-- The document of an envelope opens an object at its start and nothing behind it. -/
theorem exists_write_eq_cons (envelope : Envelope) :
    ∃ tail, Wire.write envelope = byte '\x7b' :: tail ∧ Unopened tail := by
  refine ⟨_, write_eq envelope, ?_⟩
  have hnames : Unopened (Text.utf8 "public_key") ∧ Unopened (Text.utf8 "signature") := by
    decide
  have hmarks : Unopened [byte ':', byte ',', byte '\x7d'] := by decide
  simp only [Json.unopened_cons] at hmarks
  simp [unopened_quote, unopened_encode, hnames, hmarks]

/-- The document of an envelope starts only with what starts with a brace. -/
theorem not_isPrefix_write (envelope : Envelope) {start : Bytes} (hne : start ≠ [])
    (hstart : start.head? ≠ some (byte '\x7b')) : ¬start <+: Wire.write envelope := by
  obtain ⟨tail, hwrite, -⟩ := envelope.exists_write_eq_cons
  rw [hwrite]
  cases start with
  | nil => exact absurd rfl hne
  | cons c start =>
    intro h
    exact hstart (congrArg some (List.cons_prefix_cons.1 h).1)

/-- Bytes that open no object are no envelope. -/
theorem decode_of_unopened {b : Bytes} (hb : Unopened b) :
    decode b = .error (.malformedEnvelope (if b = [] then .empty else .notRecord)) := by
  have hread : (Wire.read? b : Option Envelope) = none := by
    unfold Wire.read?
    cases hj : Json.read? b with
    | none => rfl
    | some j =>
      simp only [Wire.ofJson?, Json.fields?_of_unopened hb hj]
      rfl
  unfold decode
  split
  · rfl
  · rw [hread]

end Envelope

namespace Bindings

/-! ## Why no key is bound -/

/-- Binding a key does not fail for want of an envelope. -/
theorem bind_ne_malformed (binding : Binding) (policy : RebindPolicy) (store : HostStore)
    (fault : Malformation) :
    ((bind binding policy).run.run store).value.1 ≠ .error (.malformedEnvelope fault) := by
  rw [value_bind]
  rcases get_cases store binding.identity with ⟨bound, hget⟩ | ⟨e, hget⟩
  · rw [hget]
    dsimp only
    cases houtcome : outcome binding bound policy with
    | error e =>
      obtain ⟨key, -, -, -, rfl⟩ := exists_key_of_outcome_eq_error houtcome
      exact nofun
    | ok result =>
      cases result
      case unchanged => exact nofun
      all_goals cases store.faults.write binding.identity.storeKey <;> exact nofun
  · rw [hget]
    exact nofun

end Bindings

namespace Registration

open Json (Unopened)

variable {config : Config} {envelope : Envelope}

/-! ## What a message proves -/

/-- Behind the prefix a message holds its document. -/
theorem body_append (config : Config) (sender : Address) (document : Bytes) :
    body config ⟨sender, Text.utf8 config.memoPrefix ++ document⟩ = document := by
  have hbody : Envelope.bodyOf? config.memoPrefix (Text.utf8 config.memoPrefix ++ document) =
      some document := Envelope.bodyOf?_eq_some_iff.2 rfl
  rw [body, hbody, Option.getD_some]

/-- A message that does not start with the prefix is a document. -/
theorem body_of_not_isPrefix {sender : Address} {document : Bytes}
    (h : ¬Text.utf8 config.memoPrefix <+: document) :
    body config ⟨sender, document⟩ = document := by
  have hbody : Envelope.bodyOf? config.memoPrefix document = none := by
    rw [Option.eq_none_iff_forall_ne_some]
    intro rest hrest
    exact h ⟨rest, Envelope.bodyOf?_eq_some_iff.1 hrest⟩
  rw [body, hbody, Option.getD_none]

/-- Where the document of an envelope starts with the prefix, what is left of it is no envelope. -/
theorem proved_of_append_eq {rest : Bytes} (hnonempty : config.memoPrefix ≠ "")
    (h : Text.utf8 config.memoPrefix ++ rest = Wire.write envelope) (sender : Address) :
    proved config ⟨sender, Wire.write envelope⟩ =
      .error (.malformedEnvelope (if rest = [] then .empty else .notRecord)) := by
  obtain ⟨tail, hwrite, hunopened⟩ := envelope.exists_write_eq_cons
  have hne : Text.utf8 config.memoPrefix ≠ [] := fun h => hnonempty (Text.utf8_injective h)
  obtain ⟨c, start, hstart⟩ := List.exists_cons_of_ne_nil hne
  -- The prefix takes the opening brace with it.
  have htail : start ++ rest = tail := by
    rw [hwrite, hstart] at h
    exact (List.cons.inj h).2
  have hrest : Unopened rest := (Json.unopened_append.1 (htail ▸ hunopened)).2
  rw [proved, ← h, body_append, Envelope.decode_of_unopened hrest]

/-- Without its recovery byte a signature still has bytes. -/
theorem stripRecoveryByte_ne_nil {signature : Bytes} (h : signature ≠ []) :
    Signature.stripRecoveryByte signature ≠ [] := by
  unfold Signature.stripRecoveryByte
  split
  · next hlength =>
    intro htake
    have := congrArg List.length htake
    simp [hlength] at this
  · exact h

/-- With the prefix in front of its document, a complete envelope is accepted if it proves
possession of its key. -/
theorem proved_append (config : Config) (sender : Address) (hkey : envelope.publicKey ≠ [])
    (hsignature : envelope.signature ≠ []) :
    let read := { envelope with signature := Signature.stripRecoveryByte envelope.signature }
    proved config ⟨sender, Text.utf8 config.memoPrefix ++ Wire.write envelope⟩ =
      if read.provesPossession then .ok read else .error .verificationFailed := by
  intro read
  have hvalidate : read.validate = .ok () := by
    rw [Envelope.validate, if_neg hkey, if_neg (stripRecoveryByte_ne_nil hsignature)]
  rw [proved, body_append, Envelope.decode_write]
  dsimp only
  rw [hvalidate]

/-! ## Messages with the prefix and without -/

/-- With the prefix in front of it the document of a complete envelope is not refused as
malformed. -/
theorem execute_append_ne_malformed (config : Config) (ctx : BlockContext) (sender : Address)
    (store : HostStore) (hkey : envelope.publicKey ≠ []) (hsignature : envelope.signature ≠ [])
    (fault : Malformation) :
    ((execute config ctx ⟨sender, Text.utf8 config.memoPrefix ++ Wire.write envelope⟩).run.run
      store).value.1 ≠ .error (.malformedEnvelope fault) := by
  rw [value_execute, proved_append config sender hkey hsignature]
  split
  · next e he =>
    split at he <;> cases he
    exact nofun
  · next read hread =>
    have hbind :=
      Bindings.bind_ne_malformed ⟨.account sender, read.publicKey⟩ config.rebindPolicy store fault
    split
    · next e after hvalue =>
      rw [hvalue] at hbind
      rintro ⟨⟩
      exact hbind rfl
    · exact nofun

/-- Under a configuration that can be used, whatever the store: a complete envelope has a document,
and to register it with the memo prefix in front of the document gives the same result and leaves
the same store as to register the document alone, exactly if the document does not start with the
prefix. -/
theorem prefix_optional_iff (hconfig : config.validate = .ok ()) (ctx : BlockContext)
    (store : HostStore) (sender : Address) (hkey : envelope.publicKey ≠ [])
    (hsignature : envelope.signature ≠ []) :
    ∃ document, envelope.encode = .ok document ∧
      (((execute config ctx ⟨sender, document⟩).run.run store).value =
          ((execute config ctx
            ⟨sender, Text.utf8 config.memoPrefix ++ document⟩).run.run store).value ↔
        ¬Text.utf8 config.memoPrefix <+: document) := by
  have hencode : envelope.encode = .ok (Wire.write envelope) := by
    rw [Envelope.encode, Envelope.validate, if_neg hkey, if_neg hsignature]
  have hnonempty : config.memoPrefix ≠ "" := by
    intro hempty
    rw [Config.validate, if_pos hempty] at hconfig
    cases hconfig
  refine ⟨_, hencode, ?_, fun hdocument => ?_⟩
  · intro hsame hstarts
    -- Alone the document loses its start and is refused, as it is not with the prefix in front.
    obtain ⟨rest, hrest⟩ := hstarts
    rw [value_execute, proved_of_append_eq hnonempty hrest] at hsame
    exact execute_append_ne_malformed config ctx sender store hkey hsignature _
      (congrArg Prod.fst hsame).symm
  · rw [value_execute, value_execute, proved, proved, body_append, body_of_not_isPrefix hdocument]

/-! ### Prefixes that a document starts with and does not start with -/

open Node (firstEnvelope proved_firstRegistration)
open Proposal (firstVoter votedKey)

/-- The default prefix is optional. -/
theorem default_prefix_optional :
    firstEnvelope.encode = .ok (Wire.write firstEnvelope) ∧
      ((execute {} { height := 1 } ⟨firstVoter, Wire.write firstEnvelope⟩).run.run
          (.reliable .empty)).value =
        ((execute {} { height := 1 } ⟨firstVoter,
          Text.utf8 "SECONDARY" ++ Wire.write firstEnvelope⟩).run.run
          (.reliable .empty)).value := by
  have hkey : firstEnvelope.publicKey ≠ [] := by decide
  have hsignature : firstEnvelope.signature ≠ [] := by decide
  obtain ⟨document, hencode, hsame⟩ := prefix_optional_iff Config.validate_default { height := 1 }
    (.reliable .empty) firstVoter hkey hsignature
  have hdocument : Wire.write firstEnvelope = document := Except.ok.inj hencode
  rw [hdocument]
  refine ⟨hencode, hsame.2 ?_⟩
  rw [← hdocument]
  exact firstEnvelope.not_isPrefix_write (by decide) (by decide)

/-- A configuration whose memo prefix is an opening brace. -/
def bracePrefix : Config where
  memoPrefix := "\x7b"

/-- The configuration can be used, and under it a complete envelope is registered with the prefix in
front of its document, but refused as malformed without. -/
theorem brace_prefix_required :
    bracePrefix.validate = .ok () ∧ firstEnvelope.encode = .ok (Wire.write firstEnvelope) ∧
      ((execute bracePrefix { height := 1 } ⟨firstVoter, Wire.write firstEnvelope⟩).run.run
          (.reliable .empty)).value =
        (.error (.malformedEnvelope .notRecord), .reliable .empty) ∧
      ((execute bracePrefix { height := 1 } ⟨firstVoter,
          Text.utf8 bracePrefix.memoPrefix ++ Wire.write firstEnvelope⟩).run.run
          (.reliable .empty)).value =
        (.ok {}, .reliable (Store.empty.bind ⟨.account firstVoter, votedKey⟩)) := by
  have hbrace : Text.utf8 bracePrefix.memoPrefix = [Json.byte '\x7b'] := by decide
  refine ⟨rfl, rfl, ?_, ?_⟩
  · have hwrite := firstEnvelope.write_eq.symm
    rw [← List.singleton_append, ← hbrace] at hwrite
    rw [value_execute, proved_of_append_eq (by decide) hwrite, if_neg (by simp)]
  · obtain ⟨-, hvalidate, hproves⟩ := proved_eq_ok_iff.1 proved_firstRegistration
    have hproved : proved bracePrefix
        ⟨firstVoter, Text.utf8 bracePrefix.memoPrefix ++ Wire.write firstEnvelope⟩ =
          .ok firstEnvelope := by
      refine proved_eq_ok_iff.2 ⟨?_, hvalidate, hproves⟩
      have hlength : firstEnvelope.signature.length ≠ 65 := by decide
      rw [body_append, Envelope.decode_write, Signature.stripRecoveryByte, if_neg hlength]
    rw [value_execute_proved hproved, Store.get?_empty]
    rfl

end Registration

end SecondFactor
