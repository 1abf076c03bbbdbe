import SecondFactor.Proposal.Extensions
import SecondFactor.Proofs.Voting.Check

/-!
# Laws of the Valid Extensions

The search for the valid extensions of a commit finds what the relation `Counted` says
(`validExtensions_eq_ok_iff`), which has one rule for each way to treat a vote. From it follows by
induction what holds of whatever the search finds: each validator stands there once
(`Counted.nodup_validators`), and each extension is that of a vote of the commit and was found right
(`Counted.exists_supports`). The search reads the bindings of validators and nothing else
(`validExtensions_congr`), and it succeeds where these can be read (`exists_validExtensions`). What
it finds although calls to the store may fail is what is found where none fails
(`value_validExtensions_reliable`).
-/

namespace SecondFactor.Proposal

variable {store : HostStore} {hash : Hash}

/-! ## One vote -/

/-- An extension is the one of a vote and was found right. -/
structure Supports (store : HostStore) (hash : Hash) (vote : Vote)
    (extension : ValidExtension) : Prop where
  /-- The extension stands for the validator that voted. -/
  validator_eq : extension.validator = vote.validator
  /-- Its signature is the one that the vote carries. -/
  decode_eq : VoteExtension.decode vote.extension = .ok ⟨extension.signature⟩
  /-- The signature was checked on the store. -/
  check_eq : Voting.checkSignature store vote.validator hash extension.signature =
    .ok extension.check

/-- The result of examining a vote, without the events. -/
theorem value_examine (store : HostStore) (hash : Hash) (vote : Vote) :
    (examine store hash vote).run.value =
      match VoteExtension.decode vote.extension with
      | .error _ => .ok none
      | .ok extension =>
        match Voting.checkSignature store vote.validator hash extension.signature with
        | .ok check => .ok (some ⟨vote.validator, extension.signature, check⟩)
        | .error (.store e) => .error (.store e)
        | .error _ => .ok none := by
  unfold examine
  cases VoteExtension.decode vote.extension with
  | error e => rfl
  | ok extension =>
    dsimp only
    cases Voting.checkSignature store vote.validator hash extension.signature with
    | ok check => rfl
    | error e => cases e <;> rfl

/-- A vote counts with the extension that is its own and is right. -/
theorem supports_iff_examine {vote : Vote} {extension : ValidExtension} :
    Supports store hash vote extension ↔
      (examine store hash vote).run.value = .ok (some extension) := by
  rw [value_examine]
  constructor
  · intro hsupports
    rw [hsupports.decode_eq]
    dsimp only
    rw [hsupports.check_eq, ← hsupports.validator_eq]
  · intro h
    split at h
    · cases h
    · next decoded hdecode =>
      split at h
      · next check hcheck =>
        cases h
        exact ⟨rfl, hdecode, hcheck⟩
      · cases h
      · cases h

/-- Examining a vote ends the search only if the binding of its validator cannot be read. -/
theorem exists_examine (hash : Hash) {vote : Vote} {value : Option Bytes}
    (hget : Bindings.get store (.validator vote.validator) = .ok value) :
    ∃ found, (examine store hash vote).run.value = .ok found := by
  rw [value_examine]
  split
  · exact ⟨_, rfl⟩
  · split
    · exact ⟨_, rfl⟩
    · next hstore => exact absurd hstore (Voting.checkSignature_ne_store hget)
    · exact ⟨_, rfl⟩

/-! ## The votes of a commit -/

/-- `Counted store hash seen votes valid`: of `votes`, before which votes of the validators in
`seen` came, the extensions in `valid` count. -/
inductive Counted (store : HostStore) (hash : Hash) :
    List Address → List Vote → List ValidExtension → Prop
  /-- There is no vote. -/
  | nil {seen} : Counted store hash seen [] []
  /-- A vote without an extension or of a validator that has voted does not count. -/
  | skip {seen vote votes valid} (hskip : vote.extension = [] ∨ vote.validator ∈ seen)
      (hrest : Counted store hash seen votes valid) :
      Counted store hash seen (vote :: votes) valid
  /-- A vote whose extension is not right does not count, and neither do the validator's others. -/
  | drop {seen vote votes valid} (hextension : vote.extension ≠ [])
      (hseen : vote.validator ∉ seen)
      (hexamine : (examine store hash vote).run.value = .ok none)
      (hrest : Counted store hash (vote.validator :: seen) votes valid) :
      Counted store hash seen (vote :: votes) valid
  /-- A vote counts. -/
  | keep {seen vote votes extension valid} (hextension : vote.extension ≠ [])
      (hseen : vote.validator ∉ seen)
      (hsupports : Supports store hash vote extension)
      (hrest : Counted store hash (vote.validator :: seen) votes valid) :
      Counted store hash seen (vote :: votes) (extension :: valid)

/-- What the search finds among votes that start with a given one. -/
theorem value_validAmong_cons (seen : List Address) (vote : Vote) (rest : List Vote) :
    (validAmong store hash seen (vote :: rest)).run.value =
      if vote.extension = [] ∨ vote.validator ∈ seen then
        (validAmong store hash seen rest).run.value
      else
        match (examine store hash vote).run.value with
        | .error e => .error e
        | .ok found =>
          match (validAmong store hash (vote.validator :: seen) rest).run.value with
          | .error e => .error e
          | .ok others => .ok (found.toList ++ others) := by
  rw [validAmong]
  by_cases hextension : vote.extension = []
  · rw [if_pos hextension, if_pos (.inl hextension)]
  · rw [if_neg hextension]
    by_cases hseen : vote.validator ∈ seen
    · rw [if_pos hseen, if_pos (.inr hseen), Attempt.value_bind]
      rfl
    · rw [if_neg hseen, if_neg (not_or.2 ⟨hextension, hseen⟩), Attempt.value_bind]
      cases (examine store hash vote).run.value with
      | error e => rfl
      | ok found =>
        dsimp only
        rw [Attempt.value_bind]
        cases (validAmong store hash (vote.validator :: seen) rest).run.value <;> rfl

/-- What the search finds is counted by the rules. -/
theorem counted_of_validAmong {seen : List Address} {votes : List Vote}
    {valid : List ValidExtension}
    (h : (validAmong store hash seen votes).run.value = .ok valid) :
    Counted store hash seen votes valid := by
  -- The votes are gone through in order, with those seen before them at hand.
  induction votes generalizing seen valid with
  | nil =>
    obtain rfl := Except.ok.inj h
    exact .nil
  | cons vote rest ih =>
    rw [value_validAmong_cons] at h
    split at h
    · next hskip => exact .skip hskip (ih h)
    · next hskip =>
      obtain ⟨hextension, hseen⟩ := not_or.1 hskip
      split at h
      · cases h
      · next found hexamine =>
        split at h
        · cases h
        · next others hothers =>
          obtain rfl := Except.ok.inj h
          cases found with
          | none => exact .drop hextension hseen hexamine (ih hothers)
          | some extension =>
            exact .keep hextension hseen (supports_iff_examine.2 hexamine) (ih hothers)

/-- The search finds what is counted by the rules. -/
theorem Counted.value_validAmong {seen : List Address} {votes : List Vote}
    {valid : List ValidExtension} (h : Counted store hash seen votes valid) :
    (validAmong store hash seen votes).run.value = .ok valid := by
  induction h with
  | nil => rfl
  | skip hskip _ ih => rw [value_validAmong_cons, if_pos hskip, ih]
  | drop hextension hseen hexamine _ ih =>
    rw [value_validAmong_cons, if_neg (not_or.2 ⟨hextension, hseen⟩), hexamine, ih]
    rfl
  | keep hextension hseen hsupports _ ih =>
    rw [value_validAmong_cons, if_neg (not_or.2 ⟨hextension, hseen⟩),
      supports_iff_examine.1 hsupports, ih]
    rfl

/-- The valid extensions of a commit are those that are counted among all its votes. -/
theorem validExtensions_eq_ok_iff {commit : Commit} {valid : List ValidExtension} :
    (validExtensions store commit).run.value = .ok valid ↔
      Counted store commit.blockHash [] commit.votes valid :=
  ⟨counted_of_validAmong, Counted.value_validAmong⟩

namespace Counted

variable {seen : List Address} {votes : List Vote} {valid : List ValidExtension}

/-- Validators that have voted before do not count again. -/
theorem validator_notMem (h : Counted store hash seen votes valid) {extension : ValidExtension}
    (hmem : extension ∈ valid) : extension.validator ∉ seen := by
  induction h with
  | nil => cases hmem
  | skip _ _ ih => exact ih hmem
  | drop _ _ _ _ ih => exact fun hin => ih hmem (List.mem_cons_of_mem _ hin)
  | keep _ hseen hsupports _ ih =>
    rcases List.mem_cons.1 hmem with rfl | hrest
    · rwa [hsupports.validator_eq]
    · exact fun hin => ih hrest (List.mem_cons_of_mem _ hin)

/-- Each validator counts once. -/
theorem nodup_validators (h : Counted store hash seen votes valid) :
    (valid.map ValidExtension.validator).Nodup := by
  induction h with
  | nil => exact .nil
  | skip _ _ ih => exact ih
  | drop _ _ _ _ ih => exact ih
  | keep _ _ hsupports hrest ih =>
    refine List.nodup_cons.2 ⟨fun hmem => ?_, ih⟩
    obtain ⟨other, hother, heq⟩ := List.mem_map.1 hmem
    -- The validator counts as having voted when the later votes are searched.
    apply hrest.validator_notMem hother
    rw [heq, hsupports.validator_eq]
    exact List.mem_cons_self

/-- Each extension that counts is the one of a vote and was found right. -/
theorem exists_supports (h : Counted store hash seen votes valid) {extension : ValidExtension}
    (hmem : extension ∈ valid) : ∃ vote ∈ votes, Supports store hash vote extension := by
  induction h with
  | nil => cases hmem
  | skip _ _ ih | drop _ _ _ _ ih =>
    obtain ⟨vote, hvote, hsupports⟩ := ih hmem
    exact ⟨vote, List.mem_cons_of_mem _ hvote, hsupports⟩
  | keep _ _ hhead _ ih =>
    rcases List.mem_cons.1 hmem with rfl | hrest
    · exact ⟨_, List.mem_cons_self, hhead⟩
    · obtain ⟨vote, hvote, hsupports⟩ := ih hrest
      exact ⟨vote, List.mem_cons_of_mem _ hvote, hsupports⟩

end Counted

/-! ## What the search reads -/

/-- Where every binding of a validator can be read the search succeeds. -/
theorem exists_validAmong (hread : ∀ validator, ∃ value,
      Bindings.get store (.validator validator) = .ok value)
    (seen : List Address) (votes : List Vote) :
    ∃ valid, (validAmong store hash seen votes).run.value = .ok valid := by
  induction votes generalizing seen with
  | nil => exact ⟨[], rfl⟩
  | cons vote rest ih =>
    rw [value_validAmong_cons]
    split
    · exact ih seen
    · obtain ⟨value, hget⟩ := hread vote.validator
      obtain ⟨found, hexamine⟩ := exists_examine hash hget
      obtain ⟨others, hothers⟩ := ih (vote.validator :: seen)
      exact ⟨found.toList ++ others, by rw [hexamine, hothers]⟩

/-- On a store that does not fail every commit has its list of valid extensions. -/
theorem exists_validExtensions (contents : Store) (commit : Commit) :
    ∃ valid, (validExtensions (.reliable contents) commit).run.value = .ok valid :=
  exists_validAmong (fun validator => ⟨_, Bindings.get_reliable contents (.validator validator)⟩)
    [] commit.votes

/-- A vote is examined by the binding of its validator alone. -/
theorem examine_congr {other : HostStore} {vote : Vote}
    (hget : Bindings.get store (.validator vote.validator) =
      Bindings.get other (.validator vote.validator)) :
    examine store hash vote = examine other hash vote := by
  unfold examine
  simp only [Voting.checkSignature_congr hget]

/-- Stores on which the bindings of validators read alike have the same valid extensions. -/
theorem validExtensions_congr {other : HostStore}
    (hget : ∀ validator, Bindings.get store (.validator validator) =
      Bindings.get other (.validator validator)) (commit : Commit) :
    validExtensions store commit = validExtensions other commit := by
  have hamong : ∀ seen votes, validAmong store commit.blockHash seen votes =
      validAmong other commit.blockHash seen votes := by
    intro seen votes
    induction votes generalizing seen with
    | nil => rfl
    | cons vote rest ih => simp only [validAmong, ih, examine_congr (hget vote.validator)]
  exact hamong [] commit.votes

/-! ## Where reading may fail -/

/-- What is found of a vote is found as well where no call to the store fails. -/
theorem value_examine_reliable {vote : Vote} {found : Option ValidExtension}
    (h : (examine store hash vote).run.value = .ok found) :
    (examine (.reliable store.contents) hash vote).run.value = .ok found := by
  rcases Bindings.get_cases store (.validator vote.validator) with ⟨value, hget⟩ | ⟨e, hget⟩
  · have hcongr : examine (.reliable store.contents) hash vote = examine store hash vote := by
      apply examine_congr
      rw [Bindings.get_reliable, hget, (Bindings.get_eq_ok_iff.1 hget).2]
    rw [hcongr, h]
  · -- The binding could not be read, so nothing was found for which it matters.
    rw [value_examine] at h ⊢
    cases hdecode : VoteExtension.decode vote.extension with
    | error _ =>
      rw [hdecode] at h
      exact h
    | ok extension =>
      rw [hdecode] at h
      dsimp only at h
      rw [Voting.checkSignature, hget] at h
      cases h

/-- The extensions that count do so as well where no call to the store fails. -/
theorem Counted.reliable {seen : List Address} {votes : List Vote} {valid : List ValidExtension}
    (h : Counted store hash seen votes valid) :
    Counted (.reliable store.contents) hash seen votes valid := by
  induction h with
  | nil => exact .nil
  | skip hskip _ ih => exact .skip hskip ih
  | drop hextension hseen hexamine _ ih =>
    exact .drop hextension hseen (value_examine_reliable hexamine) ih
  | keep hextension hseen hsupports _ ih =>
    refine .keep hextension hseen (supports_iff_examine.2 ?_) ih
    exact value_examine_reliable (supports_iff_examine.1 hsupports)

/-- A commit whose valid extensions are found although calls may fail has the same ones where they
do not. -/
theorem value_validExtensions_reliable {commit : Commit} {valid : List ValidExtension}
    (h : (validExtensions store commit).run.value = .ok valid) :
    (validExtensions (.reliable store.contents) commit).run.value = .ok valid :=
  validExtensions_eq_ok_iff.2 (validExtensions_eq_ok_iff.1 h).reliable

end SecondFactor.Proposal
