import SecondFactor.Proofs.Documents
import SecondFactor.Proofs.Proposal.Decision

/-!
# Formats Apart

Envelopes, vote extensions and aggregates are records of different fields, and no value is a record
of two of them: an object tells them apart by the names of its members, and an array by the number
and the kind of its elements (`Format.Fields.unique`). Since bytes spell one value only, they are
read in at most one format. So a block that puts an envelope or a vote extension where the aggregate
belongs fares as one without an aggregate.

## Main definitions

* `Format`: the three formats, with the bytes that are read in each (`Format.Reads`).

## Main results

* `formats_apart`: no bytes are read in two formats, and what is read in another format is never
  taken for an aggregate when a proposal is processed.
-/

namespace SecondFactor

open Json (IsRecord Spells)

/-- A format of the documents that accounts and validators exchange. -/
inductive Format where
  /-- The second factor of an account. -/
  | envelope
  /-- The extension of a vote. -/
  | extension
  /-- The vote extensions of a height, collected. -/
  | aggregate
deriving DecidableEq

namespace Format

/-- Bytes are read in a format. -/
def Reads (b : Bytes) : Format → Prop
  | envelope => ∃ envelope, Envelope.decode b = .ok envelope
  | extension => ∃ extension, VoteExtension.decode b = .ok extension
  | aggregate => ∃ aggregate, Aggregate.decode b = .ok aggregate

/-- The fields of the records of a format. -/
inductive Fields : Format → List (String × Json) → Prop
  /-- An envelope has two strings. -/
  | envelope (publicKey signature : Bytes) :
      Fields .envelope [("public_key", .string publicKey), ("signature", .string signature)]
  /-- The extension of a vote has one string. -/
  | extension (signature : Bytes) : Fields .extension [("signature", .string signature)]
  /-- An aggregate has one array. -/
  | aggregate (entries : List Json) : Fields .aggregate [("entries", .array entries)]

variable {format other : Format} {b : Bytes}

/-- Bytes that are read in a format spell a record of its fields. -/
theorem Reads.exists_fields (h : format.Reads b) :
    ∃ fields j, format.Fields fields ∧ IsRecord fields j ∧ Spells j b := by
  cases format with
  | envelope =>
    obtain ⟨envelope, h⟩ := h
    obtain ⟨sent, j, ⟨publicKey, signature, -, -, hrecord⟩, hspells, -⟩ :=
      Envelope.decode_eq_ok_iff.1 h
    exact ⟨_, j, .envelope publicKey signature, hrecord, hspells⟩
  | extension =>
    obtain ⟨extension, h⟩ := h
    obtain ⟨-, j, ⟨signature, -, hrecord⟩, hspells⟩ := VoteExtension.decode_eq_ok_iff.1 h
    exact ⟨_, j, .extension signature, hrecord, hspells⟩
  | aggregate =>
    obtain ⟨aggregate, h⟩ := h
    obtain ⟨j, ⟨entries, -, hrecord⟩, hspells⟩ := Aggregate.decode_eq_ok_iff.1 h
    exact ⟨_, j, .aggregate entries, hrecord, hspells⟩

/-- No value is a record of two formats. -/
theorem Fields.unique {fields fields' : List (String × Json)} {j : Json}
    (hfields : format.Fields fields) (hfields' : other.Fields fields') (h : IsRecord fields j)
    (h' : IsRecord fields' j) : format = other := by
  -- In an array the number of elements or their kind differs, in an object the names do.
  rcases h.values_eq_or_perm_names h' with hvalues | hnames
  · cases hfields <;> cases hfields' <;> simp at hvalues ⊢
  · cases hfields <;> cases hfields' <;> simp at hnames ⊢

/-- No bytes are read in two formats. -/
theorem Reads.unique (h : format.Reads b) (h' : other.Reads b) : format = other := by
  obtain ⟨fields, j, hfields, hrecord, hspells⟩ := h.exists_fields
  obtain ⟨fields', j', hfields', hrecord', hspells'⟩ := h'.exists_fields
  obtain rfl := hspells.unique hspells'
  exact hfields.unique hfields' hrecord hrecord'

/-- What is read in another format is malformed as an aggregate. -/
theorem Reads.decode_aggregate (h : format.Reads b) (hformat : format ≠ .aggregate) :
    Aggregate.decode b = .error (.malformedEnvelope .notRecord) := by
  cases hdecode : Aggregate.decode b with
  | ok aggregate =>
    have hreads : Reads b .aggregate := ⟨aggregate, hdecode⟩
    exact absurd (h.unique hreads) hformat
  | error e =>
    unfold Aggregate.decode at hdecode
    split at hdecode <;> cases hdecode
    rfl

end Format

namespace Proposal

variable {config : Config} {store : HostStore} {request : ProcessRequest} {first : Bytes}
  {rest : List Bytes} {e : Error}

/-- A block whose first transaction cannot be read as an aggregate is in order if there is nothing
to aggregate, and else it fails as that transaction does. -/
theorem check_of_decode_eq_error (hdecode : Aggregate.decode first = .error e)
    (valid : List ValidExtension) :
    check config (first :: rest) valid = if valid = [] then .ok none else .error e := by
  rw [check, startsWithAggregate, hdecode]
  rfl

/-- Such a block changes nothing, whether it is accepted or rejected, and where it is rejected the
event says that its first transaction is no aggregate. -/
theorem process_of_decode_eq_error (hdecode : Aggregate.decode first = .error e)
    (htxs : request.txs = first :: rest) :
    let result := (process config request).run store
    result.value.2 = store ∧
      match (validExtensions store request.lastCommit).run.value with
      | .ok [] => result.value.1 = .accept
      | .ok (_ :: _) =>
        result.value.1 = .reject ∧ .proposalRejected request.height e ∈ result.events
      | .error _ => result.value.1 = .reject := by
  intro result
  have hvalue : result.value = _ := value_process config store request
  have hevents : result.events = _ := events_process config store request
  rw [value_checkAndLearn] at hevents
  rw [staged, htxs] at hvalue hevents
  cases hvalid : (validExtensions store request.lastCommit).run.value with
  | error e =>
    rw [hvalid] at hvalue
    exact ⟨congrArg Prod.snd hvalue, congrArg Prod.fst hvalue⟩
  | ok valid =>
    rw [hvalid] at hvalue hevents
    dsimp only at hvalue hevents
    -- Without a lesson there is nothing to write, so the check decides alone.
    rw [check_of_decode_eq_error hdecode] at hvalue hevents
    cases valid with
    | nil =>
      rw [if_pos rfl] at hvalue
      exact ⟨congrArg Prod.snd hvalue, congrArg Prod.fst hvalue⟩
    | cons extension others =>
      rw [if_neg (List.cons_ne_nil _ _)] at hvalue hevents
      refine ⟨congrArg Prod.snd hvalue, congrArg Prod.fst hvalue, ?_⟩
      rw [hevents]
      exact List.mem_append_right _ List.mem_cons_self

end Proposal

open Proposal (process validExtensions)

/-- No bytes are read in two of the formats. So a block whose first transaction is read as an
envelope or as the extension of a vote never changes the store. Where there are no valid extensions
it is accepted, as one with an aggregate would not be; where there are some it is rejected since its
first transaction is no aggregate. -/
theorem formats_apart :
    (∀ (b : Bytes) (format other : Format), format.Reads b → other.Reads b → format = other) ∧
    ∀ (config : Config) (store : HostStore) (request : ProcessRequest) (first : Bytes)
      (rest : List Bytes) (format : Format),
      format ≠ .aggregate → format.Reads first → request.txs = first :: rest →
        let result := (process config request).run store
        result.value.2 = store ∧
          match (validExtensions store request.lastCommit).run.value with
          | .ok [] => result.value.1 = .accept
          | .ok (_ :: _) =>
            result.value.1 = .reject ∧
              .proposalRejected request.height (.malformedEnvelope .notRecord) ∈ result.events
          | .error _ => result.value.1 = .reject := by
  refine ⟨fun _ _ _ h h' => h.unique h', ?_⟩
  intro config store request first rest format hformat hreads htxs
  exact Proposal.process_of_decode_eq_error (hreads.decode_aggregate hformat) htxs

/-! ### The extension of a vote in the place of the aggregate -/

open Proposal (bothVotes firstVotes votedSignature)

/-- A block that starts with the extension of one of the votes that it should aggregate. -/
def strayExtension : ProcessRequest :=
  { firstVotes with txs := [VoteExtension.encode ⟨votedSignature⟩] }

/-- A block that starts with an envelope, written as an array, after a commit without votes. -/
def strayEnvelope : ProcessRequest where
  height := 2
  txs := [Text.utf8 "[\"0A\", \"ff\"]"]
  lastCommit := { firstVotes.lastCommit with votes := [] }

/-- The block with the extension is rejected, and that with the envelope is accepted; neither
changes the store. -/
theorem formats_apart_stray :
    ((process {} strayExtension).run (.reliable .empty)).value = (.reject, .reliable .empty) ∧
      ((process {} strayEnvelope).run (.reliable .empty)).value = (.accept, .reliable .empty) := by
  obtain ⟨-, happart⟩ := formats_apart
  constructor
  · have hreads : Format.extension.Reads (VoteExtension.encode ⟨votedSignature⟩) :=
      ⟨_, VoteExtension.decode_encode (by decide +kernel)⟩
    -- The extensions of both votes are valid, so the block should have their aggregate.
    have hvalid : (validExtensions (.reliable .empty) strayExtension.lastCommit).run.value =
        .ok bothVotes := Proposal.validExtensions_firstVotes rfl rfl
    have hresult := happart {} (.reliable .empty) strayExtension _ [] .extension nofun hreads rfl
    rw [hvalid] at hresult
    exact Prod.ext hresult.2.1 hresult.1
  · have hreads : Format.envelope.Reads (Text.utf8 "[\"0A\", \"ff\"]") :=
      ⟨⟨[0x0A], [0xFF]⟩, rfl⟩
    have hresult := happart {} (.reliable .empty) strayEnvelope _ [] .envelope nofun hreads rfl
    exact Prod.ext hresult.2 hresult.1

end SecondFactor
