import SecondFactor.Proofs.Proposal.Decision
import SecondFactor.Proofs.Store

/-!
# Checking a Commit Again

The same commit may be checked more than once: several blocks may be proposed on it, and a block may
be tried again after the store has failed. By then some of what the commit teaches may have been
learned, and the validators concerned are held to their bindings where their keys were recovered
before. That makes no difference:

- `validExtensions_bindAll`: the valid extensions stay the same up to how they are checked;
- `staged_bindAll`: a block that has passed teaches what it has taught before, less what is known;
- `value_process_bindAll`: on a store that does not fail a block gets the verdict that it gets where
  nothing is known, and what is learned from it there is added;
- `exists_written`: whatever calls fail, only what the block teaches is written.
-/

namespace SecondFactor.Proposal

variable {config : Config} {contents later : Store} {hash : Hash} {valid : List ValidExtension}
  {known bindings : List Binding} {commit : Commit} {request : ProcessRequest}

/-! ## What a commit teaches -/

/-- All that the valid extensions of a commit teach. -/
def offered (valid : List ValidExtension) : List Binding :=
  valid.flatMap ValidExtension.learned

/-- What an extension teaches is the key that is recovered from it. -/
theorem mem_learned_iff {extension : ValidExtension} {binding : Binding} :
    binding ∈ extension.learned ↔
      ∃ key, extension.check = .recovered key ∧
        binding = ⟨.validator extension.validator, key⟩ := by
  unfold ValidExtension.learned
  cases extension.check <;> simp

/-- A commit teaches one key for a validator. -/
theorem compatible_offered
    (hvalid : (validExtensions (.reliable contents) commit).run.value = .ok valid) :
    Store.Compatible (offered valid) :=
  Store.compatible_of_nodup (nodup_learned (validExtensions_eq_ok_iff.1 hvalid).nodup_validators)

/-- A commit teaches the keys of validators that have none. -/
theorem get?_of_mem_offered
    (hvalid : (validExtensions (.reliable contents) commit).run.value = .ok valid)
    {binding : Binding} (h : binding ∈ offered valid) :
    contents.get? binding.identity.storeKey = none := by
  obtain ⟨extension, hextension, hlearned⟩ := List.mem_flatMap.1 h
  obtain ⟨key, hcheck, rfl⟩ := mem_learned_iff.1 hlearned
  obtain ⟨vote, -, hsupports⟩ := (validExtensions_eq_ok_iff.1 hvalid).exists_supports hextension
  have hright := hsupports.check_eq
  rw [hcheck, ← hsupports.validator_eq] at hright
  obtain ⟨hget, -⟩ := Voting.checkSignature_eq_recovered_iff.1 hright
  exact (Bindings.get_eq_ok_iff.1 hget).2

/-- A block teaches what the commit teaches on which it builds. -/
theorem staged_subset_offered
    (hvalid : (validExtensions (.reliable contents) request.lastCommit).run.value = .ok valid)
    (h : staged config (.reliable contents) request = .ok bindings) :
    bindings ⊆ offered valid := by
  obtain ⟨_, used, heq, hpasses, rfl⟩ := staged_eq_ok_iff.1 h
  obtain rfl := Except.ok.inj (hvalid.symm.trans heq)
  intro binding hmem
  obtain ⟨extension, hextension, hlearned⟩ := List.mem_flatMap.1 hmem
  exact List.mem_flatMap.2 ⟨extension, hpasses.used_subset hextension, hlearned⟩

/-! ## The valid extensions when part of them is known -/

/-- An extension as it is checked on a store in which its validator may have got a binding. -/
def ValidExtension.recheck (later : Store) (extension : ValidExtension) : ValidExtension where
  validator := extension.validator
  signature := extension.signature
  check :=
    if later.get? (Identity.validator extension.validator).storeKey = none then extension.check
    else .bound

/-- An extension that is checked again teaches what the store still lacks. -/
theorem learned_recheck (later : Store) (extension : ValidExtension) :
    (extension.recheck later).learned =
      extension.learned.filter fun binding => later.lacks binding.identity := by
  unfold ValidExtension.learned ValidExtension.recheck Store.lacks
  by_cases hnone : later.get? (Identity.validator extension.validator).storeKey = none
  · cases extension.check <;> simp [hnone]
  · cases extension.check <;> simp [hnone]

/-- From `contents` to `later` a validator keeps its binding, or it gets the key that an extension
teaches. -/
def KeepsOrLearns (valid : List ValidExtension) (contents later : Store)
    (validator : Address) : Prop :=
  later.get? (Identity.validator validator).storeKey =
      contents.get? (Identity.validator validator).storeKey ∨
    ∃ extension ∈ valid, extension.validator = validator ∧
      ∃ key, extension.check = .recovered key ∧
        later.get? (Identity.validator validator).storeKey = some key

/-- An extension that was right is right when it is checked again. -/
theorem Supports.recheck {vote : Vote} {extension : ValidExtension}
    (h : Supports (.reliable contents) hash vote extension)
    (hlater : later.get? (Identity.validator vote.validator).storeKey =
        contents.get? (Identity.validator vote.validator).storeKey ∨
      ∃ key, extension.check = .recovered key ∧
        later.get? (Identity.validator vote.validator).storeKey = some key) :
    Supports (.reliable later) hash vote (extension.recheck later) where
  validator_eq := h.validator_eq
  decode_eq := h.decode_eq
  check_eq := by
    rw [ValidExtension.recheck, h.validator_eq]
    exact Voting.checkSignature_later h.check_eq hlater

/-- The extensions that count are the same when the votes are gone through again. -/
theorem Counted.recheck {seen : List Address} {votes : List Vote}
    (h : Counted (.reliable contents) hash seen votes valid)
    (hlater : ∀ validator, validator ∉ seen → KeepsOrLearns valid contents later validator) :
    Counted (.reliable later) hash seen votes (valid.map (ValidExtension.recheck later)) := by
  -- Validators that have been seen are of no concern to the votes that are left.
  induction h with
  | nil => exact .nil
  | skip hskip _ ih => exact .skip hskip (ih hlater)
  | @drop seen vote votes valid hextension hseen hexamine hrest ih =>
    refine .drop hextension hseen ?_ (ih fun validator hnew =>
      hlater validator fun hmem => hnew (List.mem_cons_of_mem _ hmem))
    -- No extension is of a validator whose vote was dropped, so its binding is as before.
    rcases hlater _ hseen with hsame | ⟨extension, hmem, hvalidator, -⟩
    · rw [← hexamine]
      apply congrArg (fun examined : Attempt _ => examined.run.value)
      apply examine_congr
      rw [Bindings.get_reliable, Bindings.get_reliable, hsame]
    · exact absurd (hvalidator ▸ List.mem_cons_self) (hrest.validator_notMem hmem)
  | @keep seen vote votes extension valid hextension hseen hsupports hrest ih =>
    refine .keep hextension hseen (hsupports.recheck ?_) (ih fun validator hnew => ?_)
    · rcases hlater _ hseen with hsame | ⟨other, hmem, hvalidator, hlearned⟩
      · exact .inl hsame
      · rcases List.mem_cons.1 hmem with rfl | hmem
        · exact .inr hlearned
        · exact absurd (hvalidator ▸ List.mem_cons_self) (hrest.validator_notMem hmem)
    · obtain ⟨hne, hnew⟩ := not_or.1 (mt List.mem_cons.2 hnew)
      rcases hlater validator hnew with hsame | ⟨other, hmem, hvalidator, hlearned⟩
      · exact .inl hsame
      · rcases List.mem_cons.1 hmem with rfl | hmem
        · exact absurd (hvalidator.symm.trans hsupports.validator_eq) hne
        · exact .inr ⟨other, hmem, hvalidator, hlearned⟩

/-- Where some of what a commit teaches is known its valid extensions are the same, up to how they
are checked. -/
theorem validExtensions_bindAll
    (hvalid : (validExtensions (.reliable contents) commit).run.value = .ok valid)
    (hknown : known ⊆ offered valid) :
    (validExtensions (.reliable (contents.bindAll known)) commit).run.value =
      .ok (valid.map (ValidExtension.recheck (contents.bindAll known))) := by
  refine validExtensions_eq_ok_iff.2 ((validExtensions_eq_ok_iff.1 hvalid).recheck
    fun validator _ => ?_)
  rcases contents.get?_bindAll_cases known (Identity.validator validator).storeKey with
    hsame | ⟨binding, hmem, hkey, hget⟩
  · exact .inl hsame
  · obtain ⟨extension, hextension, hlearned⟩ := List.mem_flatMap.1 (hknown hmem)
    obtain ⟨key, hcheck, rfl⟩ := mem_learned_iff.1 hlearned
    have hvalidator := Identity.validator.inj (Identity.storeKey_injective hkey)
    exact .inr ⟨extension, hextension, hvalidator, key, hcheck, hget⟩

/-! ## A block when part of it is known -/

/-- A block that has passed passes again. -/
theorem Passes.recheck {used : List ValidExtension} {txs : List Bytes}
    (h : Passes config valid txs used) (later : Store) :
    Passes config (valid.map (ValidExtension.recheck later)) txs
      (used.map (ValidExtension.recheck later)) := by
  cases h with
  | plain hvalid htxs => exact .plain (List.map_eq_nil_iff.2 hvalid) htxs
  | aggregated hdecode hne hlimit hused hdistinct hentries =>
    refine .aggregated hdecode hne hlimit (List.map_subset _ hused) ?_ ?_
    · rwa [List.map_map]
    · rw [← hentries, List.map_map]
      rfl

/-- A block that passes when it is checked again has been admissible before. -/
theorem Admissible.of_recheck {txs : List Bytes}
    (h : Admissible config (valid.map (ValidExtension.recheck later)) txs) :
    Admissible config valid txs := by
  cases h with
  | plain hvalid htxs => exact .plain (List.map_eq_nil_iff.1 hvalid) htxs
  | aggregated hvalid hdecode hne hlimit hdistinct hentries =>
    refine .aggregated (mt List.map_eq_nil_iff.2 hvalid) hdecode hne hlimit hdistinct ?_
    intro entry hentry
    obtain ⟨_, hmem, hvalidator, hsignature⟩ := hentries entry hentry
    obtain ⟨extension, hextension, rfl⟩ := List.mem_map.1 hmem
    exact ⟨extension, hextension, hvalidator, hsignature⟩

/-- A block that has passed teaches what it has taught before, less what is known. -/
theorem staged_bindAll
    (hvalid : (validExtensions (.reliable contents) request.lastCommit).run.value = .ok valid)
    (hknown : known ⊆ offered valid)
    (h : staged config (.reliable contents) request = .ok bindings) :
    staged config (.reliable (contents.bindAll known)) request =
      .ok (bindings.filter fun binding => (contents.bindAll known).lacks binding.identity) := by
  obtain ⟨_, used, heq, hpasses, rfl⟩ := staged_eq_ok_iff.1 h
  obtain rfl := Except.ok.inj (hvalid.symm.trans heq)
  refine staged_eq_ok_iff.2 ⟨_, _, validExtensions_bindAll hvalid hknown, hpasses.recheck _, ?_⟩
  rw [List.flatMap_map, List.filter_flatMap]
  exact List.flatMap_congr fun extension _ => learned_recheck _ extension

/-- A block that has not passed does not pass where something is known. -/
theorem exists_staged_of_bindAll
    (hvalid : (validExtensions (.reliable contents) request.lastCommit).run.value = .ok valid)
    (hknown : known ⊆ offered valid)
    (h : staged config (.reliable (contents.bindAll known)) request = .ok bindings) :
    ∃ before, staged config (.reliable contents) request = .ok before := by
  obtain ⟨_, used, heq, hpasses, -⟩ := staged_eq_ok_iff.1 h
  obtain rfl := Except.ok.inj ((validExtensions_bindAll hvalid hknown).symm.trans heq)
  have hadmissible := (exists_passes_iff_admissible.1 ⟨used, hpasses⟩).of_recheck
  obtain ⟨used, hpasses⟩ := exists_passes_iff_admissible.2 hadmissible
  exact ⟨_, staged_eq_ok_iff.2 ⟨valid, used, hvalid, hpasses, rfl⟩⟩

/-- The verdict on a block where no call to the store fails. -/
def verdictOn (config : Config) (contents : Store) (request : ProcessRequest) : Verdict :=
  ((process config request).run (.reliable contents)).value.1

/-- What is learned from a block where no call to the store fails: the keys that it teaches if it is
accepted. -/
def learnedFrom (config : Config) (contents : Store) (request : ProcessRequest) : List Binding :=
  match staged config (.reliable contents) request with
  | .error _ => []
  | .ok bindings => bindings

/-- A block is accepted exactly if it passes. -/
theorem verdictOn_eq_accept_iff :
    verdictOn config contents request = .accept ↔
      ∃ bindings, staged config (.reliable contents) request = .ok bindings := by
  rw [verdictOn, value_process_reliable]
  cases staged config (.reliable contents) request <;> simp

theorem learnedFrom_of_staged
    (h : staged config (.reliable contents) request = .ok bindings) :
    learnedFrom config contents request = bindings := by
  rw [learnedFrom, h]

/-- Where some of what a commit teaches is known a block gets the verdict that it gets where nothing
is known, and what is learned from it there is added. -/
theorem value_process_bindAll
    (hvalid : (validExtensions (.reliable contents) request.lastCommit).run.value = .ok valid)
    (hknown : known ⊆ offered valid) :
    ((process config request).run (.reliable (contents.bindAll known))).value =
      (verdictOn config contents request,
        .reliable (contents.bindAll (known ++ learnedFrom config contents request))) := by
  rw [verdictOn, value_process_reliable, value_process_reliable, learnedFrom]
  cases hbefore : staged config (.reliable contents) request with
  | error e =>
    cases hnow : staged config (.reliable (contents.bindAll known)) request with
    | error _ => rw [List.append_nil]
    | ok _ =>
      obtain ⟨_, hok⟩ := exists_staged_of_bindAll hvalid hknown hnow
      rw [hbefore] at hok
      cases hok
  | ok bindings =>
    have hsubset := staged_subset_offered hvalid hbefore
    have hcompatible : Store.Compatible (known ++ bindings) :=
      (compatible_offered hvalid).subset (List.append_subset.2 ⟨hknown, hsubset⟩)
    rw [staged_bindAll hvalid hknown hbefore]
    dsimp only
    rw [Store.bindAll_filter_lacks hcompatible fun binding hmem =>
      get?_of_mem_offered hvalid (hsubset hmem)]

/-- A block of which everything is known announces no write. -/
theorem announcesOnly_process_known
    (hvalid : (validExtensions (.reliable contents) request.lastCommit).run.value = .ok valid)
    (hknown : known ⊆ offered valid)
    (h : staged config (.reliable contents) request = .ok bindings) (hsubset : bindings ⊆ known) :
    AnnouncesOnly (fun _ => False)
      ((process config request).run (.reliable (contents.bindAll known))) := by
  refine (announcesOnly_process config _ request).mono ?_
  rintro identity ⟨_, hstaged, binding, hmem, rfl⟩
  rw [staged_bindAll hvalid hknown h] at hstaged
  obtain rfl := Except.ok.inj hstaged
  obtain ⟨hbinding, hlacks⟩ := List.mem_filter.1 hmem
  -- The store does not lack it, since it is one of those that are known.
  have hfound := Store.get?_bindAll_of_compatible contents
    ((compatible_offered hvalid).subset hknown) (hsubset hbinding)
  rw [Store.lacks_iff, hfound] at hlacks
  cases hlacks

/-! ## A block when calls fail -/

/-- A block that passes although calls may fail passes as well where they do not. -/
theorem staged_reliable {store : HostStore} (h : staged config store request = .ok bindings) :
    staged config (.reliable store.contents) request = .ok bindings := by
  obtain ⟨valid, used, hvalid, hpasses, hlearned⟩ := staged_eq_ok_iff.1 h
  exact staged_eq_ok_iff.2
    ⟨valid, used, value_validExtensions_reliable hvalid, hpasses, hlearned⟩

/-- The block with two first votes teaches both keys where no call fails, too. -/
theorem staged_firstVotes_reliable : staged {} (.reliable .empty) firstVotes =
    .ok [⟨.validator firstVoter, votedKey⟩, ⟨.validator secondVoter, votedKey⟩] := by
  have hstaged := staged_reliable staged_firstVotes
  exact hstaged

theorem verdictOn_firstVotes : verdictOn {} .empty firstVotes = .accept :=
  verdictOn_eq_accept_iff.2 ⟨_, staged_firstVotes_reliable⟩

/-- Whatever calls to the store fail, a block writes only what it teaches. -/
theorem exists_written
    (hvalid : (validExtensions (.reliable contents) request.lastCommit).run.value = .ok valid)
    (h : staged config (.reliable contents) request = .ok bindings) (hknown : known ⊆ bindings)
    (faults : Faults) :
    ∃ written, written ⊆ bindings ∧
      ((process config request).run ⟨contents.bindAll known, faults⟩).value.2.contents =
        contents.bindAll (known ++ written) := by
  have hoffered := List.Subset.trans hknown (staged_subset_offered hvalid h)
  rw [value_process]
  cases hnow : staged config ⟨contents.bindAll known, faults⟩ request with
  | error e =>
    refine ⟨[], List.nil_subset _, ?_⟩
    rw [List.append_nil]
  | ok _ =>
    obtain rfl := Except.ok.inj
      ((staged_bindAll hvalid hoffered h).symm.trans (staged_reliable hnow))
    refine ⟨_, ?_, (Store.bindAll_append ..).symm⟩
    exact List.Subset.trans (List.takeWhile_subset _) (List.filter_subset_self _)

end SecondFactor.Proposal
