import SecondFactor.Proofs.Json.Forms

/-!
# Records That Ignore Members

The fields of a record that skips the members it does not know. What is found depends only on the
members under each of its names (`Json.fields?_congr`), so the order of the members does not matter
and unknown ones may be dropped. An array stands for the object of its elements, named one after the
other (`Json.fields?_array`).
-/

namespace SecondFactor.Json

/-- The rules of a record that ignores unknown members. -/
def RecordRules.lenient : RecordRules where
  ignoresUnknown := true

variable {names : List String} {rules : RecordRules} {members members' : List (String × Json)}

/-- The fields of an object are looked up under their names, none of which may stand twice. -/
theorem fields?_of_ignoresUnknown (hrules : rules.ignoresUnknown = true) :
    fields? names rules (ofFields members) =
      if ∀ name ∈ names, members.countP (·.1 == name) ≤ 1 then
        some (names.map fun name => members.lookup name)
      else none := by
  rw [ofFields, fields?, textMembers?_utf8]
  simp [hrules]

/-- What is found depends only on the members under each name. -/
theorem fields?_congr (hrules : rules.ignoresUnknown = true)
    (h : ∀ name ∈ names,
      (members.filter (·.1 == name)).Perm (members'.filter (·.1 == name))) :
    fields? names rules (ofFields members) = fields? names rules (ofFields members') := by
  have hcount : ∀ name ∈ names,
      members.countP (·.1 == name) = members'.countP (·.1 == name) := by
    intro name hname
    rw [List.countP_eq_length_filter, List.countP_eq_length_filter, (h name hname).length_eq]
  have honce : (∀ name ∈ names, members.countP (·.1 == name) ≤ 1) ↔
      ∀ name ∈ names, members'.countP (·.1 == name) ≤ 1 :=
    forall₂_congr fun name hname => by rw [hcount name hname]
  rw [fields?_of_ignoresUnknown hrules, fields?_of_ignoresUnknown hrules]
  refine if_ctx_congr honce (fun honce' => ?_) fun _ => rfl
  -- No name stands twice, so what is found under a name is the one member that stands there.
  refine congrArg some (List.map_congr_left fun name hname => Option.ext fun value => ?_)
  have hmem := (h name hname).mem_iff (a := (name, value))
  rw [lookup_eq_some_iff_of_countP (honce.2 honce' name hname),
    lookup_eq_some_iff_of_countP (honce' name hname)]
  simpa using hmem

/-- The order of the members does not matter. -/
theorem fields?_perm (hrules : rules.ignoresUnknown = true) (h : members.Perm members') :
    fields? names rules (ofFields members) = fields? names rules (ofFields members') :=
  fields?_congr hrules fun _ _ => h.filter _

/-- Members under other names may be dropped. -/
theorem fields?_filter (hrules : rules.ignoresUnknown = true) :
    fields? names rules (ofFields (members.filter fun member => member.1 ∈ names)) =
      fields? names rules (ofFields members) := by
  refine fields?_congr hrules fun name hname => ?_
  rw [List.filter_filter]
  refine .of_eq (List.filter_congr fun member _ => ?_)
  by_cases heq : member.1 = name
  · simp [heq, hname]
  · simp [heq]

/-- A member under a name that does not stand yet is found there, and all else is found as before;
if nothing is found without it, neither is with it. -/
theorem fields?_cons {name : String} (value : Json) (hrules : rules.ignoresUnknown = true)
    (habsent : name ∉ members.map Prod.fst) :
    (fields? names rules (ofFields members) = none ∧
      fields? names rules (ofFields ((name, value) :: members)) = none) ∨
    ∃ found : String → Option Json, found name = none ∧
      fields? names rules (ofFields members) = some (names.map found) ∧
      fields? names rules (ofFields ((name, value) :: members)) =
        some (names.map (Function.update found name (some value))) := by
  have hnone : members.countP (·.1 == name) = 0 := by
    rw [← count_names, List.count_eq_zero_of_not_mem habsent]
  -- The new member is alone under its name, so no name stands twice because of it.
  have honce : (∀ other ∈ names, ((name, value) :: members).countP (·.1 == other) ≤ 1) ↔
      ∀ other ∈ names, members.countP (·.1 == other) ≤ 1 := by
    refine forall₂_congr fun other _ => ?_
    by_cases heq : other = name
    · subst heq
      simp [hnone]
    · rw [List.countP_cons_of_neg (by simpa using Ne.symm heq)]
  simp only [fields?_of_ignoresUnknown hrules, honce]
  split
  · refine .inr ⟨fun other => members.lookup other, ?_, rfl, ?_⟩
    · refine List.lookup_eq_none_iff.2 fun member hmember => bne_iff_ne.2 ?_
      rintro rfl
      exact habsent (List.mem_map_of_mem hmember)
    · refine congrArg some (List.map_congr_left fun other _ => ?_)
      by_cases heq : other = name
      · subst heq
        simp
      · rw [Function.update_of_ne heq, lookup_cons_of_ne heq]
  · exact .inl ⟨rfl, rfl⟩

/-! ## Arrays -/

/-- Among values named one after the other, each is found under its name. -/
theorem map_lookup_zip (hnodup : names.Nodup) {values : List Json}
    (hlength : values.length ≤ names.length) :
    names.map (fun name => (names.zip values).lookup name) =
      values.map some ++ List.replicate (names.length - values.length) none := by
  induction names generalizing values with
  | nil =>
    obtain rfl := List.eq_nil_of_length_eq_zero (Nat.le_zero.1 hlength)
    rfl
  | cons name rest ih =>
    obtain ⟨hname, hrest⟩ := List.nodup_cons.1 hnodup
    cases values with
    | nil => simp [List.replicate_succ]
    | cons value values =>
      rw [List.zip_cons_cons, List.map_cons, map_lookup_cons hname,
        ih hrest (Nat.le_of_succ_le_succ hlength), List.lookup_cons_self]
      simp

/-- An array that is not too long, nor too short, has the fields of the object of its elements,
named one after the other. -/
theorem fields?_array (hrules : rules.ignoresUnknown = true) (hnodup : names.Nodup)
    {values : List Json} (hlength : values.length = names.length ∨
      rules.mayBeShorter = true ∧ values.length < names.length) :
    fields? names rules (.array values) = fields? names rules (ofFields (names.zip values)) := by
  have hle : values.length ≤ names.length := by omega
  have hzip : ((names.zip values).map Prod.fst).Nodup := by
    rw [List.zip_eq_zip_take_min, List.map_fst_zip (by simp)]
    exact hnodup.sublist (List.take_sublist _ _)
  have honce : ∀ name ∈ names, (names.zip values).countP (·.1 == name) ≤ 1 := by
    intro name _
    rw [← count_names]
    exact List.nodup_iff_count_le_one.1 hzip name
  rw [fields?_of_ignoresUnknown hrules, if_pos honce, map_lookup_zip hnodup hle, fields?,
    if_pos hlength]

end SecondFactor.Json
