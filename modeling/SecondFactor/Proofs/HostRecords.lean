import SecondFactor.Chain.Proposal
import SecondFactor.Proofs.Documents
import SecondFactor.Proofs.Json.Lenient
import SecondFactor.Proofs.Json.Values
import SecondFactor.Registration

/-!
# The Records of the Host

Transactions, votes, requests, registrations and configurations come to a node as documents and are
written as documents again. Their readers take many spellings of one value: members in any order,
unknown members beside them, arrays in place of objects, fields left out where there is a default,
blanks and escapes anywhere. Their writers know one spelling, and what it spells is the value.

## Main definitions

* `Wire.HostRecord`: the laws of such a record.

## Main results

* `Wire.HasLayout.hostRecord`: a record with lenient rules has these laws, if each of its defaults
  is what a missing field is read as;
* `host_records_round_trip`: the records of the host have them.
-/

namespace SecondFactor

open Json LawfulWire Wire

/-! ## Lenient records -/

/-- The laws of a record with the given names that the host passes on, some of whose fields have
defaults. -/
structure Wire.HostRecord (α : Type) [Wire α] (names : List String) (rules : RecordRules)
    (defaults : List (String × Json)) : Prop where
  /-- A value comes back from its document. -/
  read?_write : ∀ a : α, read? (write a) = some a
  /-- A value is written as the object of all its fields, in their order. -/
  written : ∀ a : α, ∃ values : List Json, values.length = names.length ∧
    toJson a = .ofFields (names.zip values)
  /-- What has been read from any document comes back from its own document, which is written once
  more as it is. -/
  write_read? : ∀ (b : Bytes) (a : α), read? b = some a →
    read? (write a) = some a ∧ (read? (write a) : Option α).map write = some (write a)
  /-- What is read from a document is decided by the value it spells, in whatever blanks and
  escapes. -/
  spelled : ∀ (b : Bytes) (a : α), read? b = some a ↔ ∃ j, ofJson? j = some a ∧ Spells j b
  /-- The members of an object may stand in any order. -/
  perm : ∀ members members' : List (String × Json), members.Perm members' →
    (ofJson? (.ofFields members) : Option α) = ofJson? (.ofFields members')
  /-- Members that are no fields are ignored. -/
  unknown : ∀ members : List (String × Json),
    (ofJson? (.ofFields (members.filter fun member => member.1 ∈ names)) : Option α) =
      ofJson? (.ofFields members)
  /-- A field with a default may be left out. -/
  absent : ∀ (members : List (String × Json)) (name : String) (value : Json),
    (name, value) ∈ defaults → name ∉ members.map Prod.fst →
      (ofJson? (.ofFields members) : Option α) = ofJson? (.ofFields ((name, value) :: members))
  /-- An array stands for the object of its elements under the names of the fields. -/
  array : ∀ values : List Json,
    (values.length = names.length ∨ rules.mayBeShorter = true ∧ values.length < names.length) →
      (ofJson? (.array values) : Option α) = ofJson? (.ofFields (names.zip values))

/-- A record is read without a field as it is with a certain value there. -/
def Wire.HasDefault (α : Type) [Wire α] (names : List String) (rules : RecordRules)
    (field : String × Json) : Prop :=
  ∀ (found : String → Option Json) (j j' : Json), found field.1 = none →
    fields? names rules j = some (names.map found) →
    fields? names rules j' = some (names.map (Function.update found field.1 (some field.2))) →
      (ofJson? j : Option α) = ofJson? j'

namespace Wire.HasLayout

variable {α : Type} [Wire α] {names : List String} {rules : RecordRules}
  {fields : α → List (String × Json)}

/-- Forms with the same fields are read alike. -/
theorem ofJson?_congr (h : HasLayout α names rules fields) {j j' : Json}
    (hfields : fields? names rules j = fields? names rules j') :
    (ofJson? j : Option α) = ofJson? j' := by
  obtain ⟨make, hmake, -⟩ := h.exists_make
  rw [hmake, hmake, hfields]

/-- A form without fields is refused. -/
theorem ofJson?_eq_none (h : HasLayout α names rules fields) {j : Json}
    (hfields : fields? names rules j = none) : (ofJson? j : Option α) = none := by
  obtain ⟨make, hmake, -⟩ := h.exists_make
  rw [hmake, hfields, Option.bind_none]

/-- A record that ignores unknown members has the laws of the records of the host. -/
theorem hostRecord {defaults : List (String × Json)} (h : HasLayout α names rules fields)
    (hrules : rules.ignoresUnknown = true)
    (hdefaults : ∀ field ∈ defaults, HasDefault α names rules field) :
    HostRecord α names rules defaults := by
  have := h.lawful
  -- Reading is a function of the fields, so a law of what is read is one of the fields found.
  exact {
    read?_write := Wire.read?_write
    written := fun a => by
      refine ⟨(fields a).map Prod.snd, ?_, ?_⟩
      · rw [← h.names_eq a, List.length_map, List.length_map]
      · rw [h.toJson_eq, ← List.zip_of_prod (h.names_eq a) rfl]
    write_read? := fun _ a _ => ⟨Wire.read?_write a, by rw [Wire.read?_write a, Option.map_some]⟩
    spelled := fun _ _ => read?_eq_some_iff
    perm := fun _ _ hperm => h.ofJson?_congr (fields?_perm hrules hperm)
    unknown := fun _ => h.ofJson?_congr (fields?_filter hrules)
    absent := by
      intro members name value hdefault habsent
      obtain ⟨hwithout, hwith⟩ | ⟨found, hnone, hwithout, hwith⟩ :=
        @fields?_cons names rules members name value hrules habsent
      · rw [h.ofJson?_eq_none hwithout, h.ofJson?_eq_none hwith]
      · exact hdefaults _ hdefault found _ _ hnone hwithout hwith
    array := fun _ hlength => h.ofJson?_congr (fields?_array hrules h.nodup hlength) }

end Wire.HasLayout

/-! ## Transactions -/

theorem BlockContext.hasLayout : Wire.HasLayout BlockContext ["chain_id", "height", "header_hash"]
    .lenient fun ctx => [("chain_id", Wire.toJson ctx.chainId), ("height", Wire.toJson ctx.height),
      ("header_hash", Wire.toJson ctx.headerHash)] where
  nodup := by simp
  names_eq _ := rfl
  plain := by simp [plain_toJson]
  toJson_eq _ := rfl
  exists_make := ⟨_, fun _ => rfl, fun _ => by simp [ofJson?_toJson]⟩

namespace SignerInfo

theorem plain_keyToJson (key : Option Bytes) : (keyToJson key).Plain := by
  cases key with
  | none => exact .null
  | some key => exact plain_ofHex key

theorem keyOfJson?_keyToJson (key : Option Bytes) :
    keyOfJson? (some (keyToJson key)) = some key := by
  cases key with
  | none => rfl
  | some key => exact congrArg (Option.map some) (hex?_ofHex key)

theorem hasLayout : Wire.HasLayout SignerInfo ["address", "public_key", "signature"] .lenient
    fun signer => [("address", Wire.toJson signer.address),
      ("public_key", keyToJson signer.publicKey), ("signature", ofHex signer.signature)] where
  nodup := by simp
  names_eq _ := rfl
  plain := by simp [plain_toJson, plain_keyToJson, plain_ofHex]
  toJson_eq _ := rfl
  exists_make := ⟨_, fun _ => rfl, fun _ => by simp [ofJson?_toJson, keyOfJson?_keyToJson]⟩

instance : LawfulWire SignerInfo :=
  hasLayout.lawful

/-- Without a public key it is as if the key were `null`. -/
theorem hasDefault_publicKey :
    Wire.HasDefault SignerInfo ["address", "public_key", "signature"] .lenient
      ("public_key", .null) := by
  intro found j j' hnone hwithout hwith
  change (fields? ["address", "public_key", "signature"] .lenient j).bind _ =
    (fields? ["address", "public_key", "signature"] .lenient j').bind _
  have hfound : ["address", "public_key", "signature"].map found =
      [found "address", none, found "signature"] := by simpa using hnone
  have hupdated : ["address", "public_key", "signature"].map
      (Function.update found "public_key" (some .null)) =
        [found "address", some .null, found "signature"] := by simp
  rw [hwithout, hwith, hfound, hupdated]
  -- A signer without an address or a signature is refused in both cases.
  cases found "address" <;> cases found "signature" <;> rfl

end SignerInfo

theorem Transaction.hasLayout : Wire.HasLayout Transaction ["memo", "signers", "signatures"]
    .lenient fun tx => [("memo", Wire.toJson tx.memo), ("signers", Wire.toJson tx.signers),
      ("signatures", Wire.toJson tx.signatures)] where
  nodup := by simp
  names_eq _ := rfl
  plain := by simp [plain_toJson]
  toJson_eq _ := rfl
  exists_make := ⟨_, fun _ => rfl, fun _ => by simp [ofJson?_toJson]⟩

/-! ## Votes and proposals -/

theorem Vote.hasLayout : Wire.HasLayout Vote ["validator_address", "vote_extension"] .lenient
    fun vote => [("validator_address", Wire.toJson vote.validator),
      ("vote_extension", ofByteNumbers vote.extension)] where
  nodup := by simp
  names_eq _ := rfl
  plain := by simp [plain_toJson, plain_ofByteNumbers]
  toJson_eq _ := rfl
  exists_make := ⟨_, fun _ => rfl, fun _ => by simp [ofJson?_toJson, byteNumbers?_ofByteNumbers]⟩

instance : LawfulWire Vote :=
  Vote.hasLayout.lawful

theorem Commit.hasLayout : Wire.HasLayout Commit ["height", "block_hash", "votes"] .lenient
    fun commit => [("height", Wire.toJson commit.height),
      ("block_hash", Wire.toJson commit.blockHash), ("votes", Wire.toJson commit.votes)] where
  nodup := by simp
  names_eq _ := rfl
  plain := by simp [plain_toJson]
  toJson_eq _ := rfl
  exists_make := ⟨_, fun _ => rfl, fun _ => by simp [ofJson?_toJson]⟩

instance : LawfulWire Commit :=
  Commit.hasLayout.lawful

theorem CheckRequest.hasLayout : Wire.HasLayout CheckRequest
    ["height", "hash", "validator_address", "vote_extension"] .lenient fun request =>
      [("height", Wire.toJson request.height), ("hash", Wire.toJson request.hash),
        ("validator_address", Wire.toJson request.validator),
        ("vote_extension", ofByteNumbers request.extension)] where
  nodup := by simp
  names_eq _ := rfl
  plain := by simp [plain_toJson, plain_ofByteNumbers]
  toJson_eq _ := rfl
  exists_make := ⟨_, fun _ => rfl, fun _ => by simp [ofJson?_toJson, byteNumbers?_ofByteNumbers]⟩

theorem plain_ofTransactions (txs : List Bytes) : (ofTransactions txs).Plain := by
  refine .array fun element helement => ?_
  obtain ⟨tx, -, rfl⟩ := List.mem_map.1 helement
  exact plain_ofByteNumbers tx

theorem transactions?_ofTransactions (txs : List Bytes) :
    (ofTransactions txs).transactions? = some txs :=
  list?_map byteNumbers?_ofByteNumbers txs

theorem PrepareRequest.hasLayout : Wire.HasLayout PrepareRequest
    ["height", "txs", "local_last_commit"] .lenient fun request =>
      [("height", Wire.toJson request.height), ("txs", ofTransactions request.txs),
        ("local_last_commit", Wire.toJson request.lastCommit)] where
  nodup := by simp
  names_eq _ := rfl
  plain := by simp [plain_toJson, plain_ofTransactions]
  toJson_eq _ := rfl
  exists_make := ⟨_, fun _ => rfl, fun _ => by
    simp [ofJson?_toJson, transactions?_ofTransactions]⟩

theorem ProcessRequest.hasLayout : Wire.HasLayout ProcessRequest
    ["height", "txs", "proposed_last_commit"] .lenient fun request =>
      [("height", Wire.toJson request.height), ("txs", ofTransactions request.txs),
        ("proposed_last_commit", Wire.toJson request.lastCommit)] where
  nodup := by simp
  names_eq _ := rfl
  plain := by simp [plain_toJson, plain_ofTransactions]
  toJson_eq _ := rfl
  exists_make := ⟨_, fun _ => rfl, fun _ => by
    simp [ofJson?_toJson, transactions?_ofTransactions]⟩

/-! ## Registrations and configurations -/

theorem RegisterMessage.hasLayout : Wire.HasLayout RegisterMessage ["sender", "envelope"] .lenient
    fun message => [("sender", Wire.toJson message.sender),
      ("envelope", ofHex message.envelope)] where
  nodup := by simp
  names_eq _ := rfl
  plain := by simp [plain_toJson, plain_ofHex]
  toJson_eq _ := rfl
  exists_make := ⟨_, fun _ => rfl, fun _ => by simp [ofJson?_toJson]⟩

namespace Config

/-- The members of the document of a configuration. -/
def members (config : Config) : List (String × Json) :=
  [("memo_prefix", Wire.toJson config.memoPrefix),
    ("genesis_height", Wire.toJson config.genesisHeight),
    ("vote_extensions_enable_height", Wire.toJson config.extensionsEnableHeight),
    ("max_aggregate_entries", Wire.toJson config.maxAggregateEntries),
    ("account_rebind_policy", Wire.toJson config.rebindPolicy)]

theorem fieldOr_toJson {α : Type} [Wire α] [LawfulWire α] (preset a : α) :
    fieldOr preset (some (Wire.toJson a)) = some a :=
  ofJson?_toJson a

theorem hasLayout : Wire.HasLayout Config fieldNames { RecordRules.lenient with
    mayBeShorter := true } members where
  nodup := by decide
  names_eq _ := rfl
  plain := by simp [members, plain_toJson]
  toJson_eq _ := rfl
  exists_make := ⟨_, fun _ => rfl, fun _ => by simp [members, fieldOr_toJson]⟩

/-- Without a field it is as if the preset value stood there. -/
theorem hasDefault_preset : ∀ field ∈ members {},
    Wire.HasDefault Config fieldNames { RecordRules.lenient with mayBeShorter := true } field := by
  intro field hfield found j j' hnone hwithout hwith
  change (fields? fieldNames { RecordRules.lenient with mayBeShorter := true } j).bind _ =
    (fields? fieldNames { RecordRules.lenient with mayBeShorter := true } j').bind _
  rw [hwithout, hwith]
  simp only [members, List.mem_cons, List.not_mem_nil, or_false] at hfield
  -- Whichever field it is, its document form is read as the preset value.
  obtain rfl | rfl | rfl | rfl | rfl := hfield <;>
    simp [fieldNames, hnone, fieldOr, ofJson?_toJson]

end Config

/-! ## Round trips -/

/-- Transactions and their signers, block contexts, commits, requests, registration messages and
configurations come back from their documents. Whatever document they are read from, the one that
is then written is read as the same value, and written as it is. Beyond that one document, a member
may stand anywhere, stand beside unknown ones, or be left out where it has a default: the key of a
signer, and all that a configuration sets. -/
theorem host_records_round_trip :
    HostRecord Transaction ["memo", "signers", "signatures"] .lenient [] ∧
    HostRecord SignerInfo ["address", "public_key", "signature"] .lenient
      [("public_key", .null)] ∧
    HostRecord BlockContext ["chain_id", "height", "header_hash"] .lenient [] ∧
    HostRecord Commit ["height", "block_hash", "votes"] .lenient [] ∧
    HostRecord Vote ["validator_address", "vote_extension"] .lenient [] ∧
    HostRecord PrepareRequest ["height", "txs", "local_last_commit"] .lenient [] ∧
    HostRecord ProcessRequest ["height", "txs", "proposed_last_commit"] .lenient [] ∧
    HostRecord CheckRequest ["height", "hash", "validator_address", "vote_extension"]
      .lenient [] ∧
    HostRecord RegisterMessage ["sender", "envelope"] .lenient [] ∧
    HostRecord Config Config.fieldNames { RecordRules.lenient with mayBeShorter := true }
      (Config.members {}) :=
  ⟨Transaction.hasLayout.hostRecord rfl (by simp),
    SignerInfo.hasLayout.hostRecord rfl (by simpa using SignerInfo.hasDefault_publicKey),
    BlockContext.hasLayout.hostRecord rfl (by simp), Commit.hasLayout.hostRecord rfl (by simp),
    Vote.hasLayout.hostRecord rfl (by simp), PrepareRequest.hasLayout.hostRecord rfl (by simp),
    ProcessRequest.hasLayout.hostRecord rfl (by simp),
    CheckRequest.hasLayout.hostRecord rfl (by simp),
    RegisterMessage.hasLayout.hostRecord rfl (by simp),
    Config.hasLayout.hostRecord rfl Config.hasDefault_preset⟩

/-- A transaction with an unknown member, its members out of order, an escape in the memo, and a
signer who leaves the key out. -/
def oddDocument : Bytes :=
  Text.utf8 ("\x7b\"fee\": [1e9], \"signatures\": [\x7b\"signature\": \"aB\", " ++
    "\"address\": \"0000000000000000000000000000000000000000\"\x7d], " ++
    "\"memo\": \"\\u00e9\", \"signers\": []\x7d")

/-- What the odd document holds. -/
def oddTransaction : Transaction where
  memo := "é"
  signatures := [⟨.zero 20, none, [0xAB]⟩]

/-- The odd document is read, and its transaction comes back from the one written for it; so does
the configuration of an array with one element, whose other fields are preset. -/
theorem host_records_round_trip_odd :
    Wire.read? oddDocument = some oddTransaction ∧
    Wire.read? (Wire.write oddTransaction) = some oddTransaction ∧
    Wire.read? (Text.utf8 "[\"A\"]") = some ({ memoPrefix := "A" } : Config) ∧
    Wire.read? (Wire.write ({ memoPrefix := "A" } : Config)) =
      some ({ memoPrefix := "A" } : Config) := by
  obtain ⟨htx, -, -, -, -, -, -, -, -, hconfig⟩ := host_records_round_trip
  have hodd : Wire.read? oddDocument = some oddTransaction := by decide +kernel
  have hpreset : Wire.read? (Text.utf8 "[\"A\"]") = some ({ memoPrefix := "A" } : Config) := rfl
  exact ⟨hodd, (htx.write_read? _ _ hodd).1, hpreset, (hconfig.write_read? _ _ hpreset).1⟩

end SecondFactor
