import Mathlib.Data.List.Perm.Basic
import SecondFactor.Proofs.Hex
import SecondFactor.Proofs.Json.Records

/-!
# The Forms of Records

Which values are read as a record (`IsRecord`): the array of the values of its fields, in their
order, and every object that has each field once as a member, in any order, and no other members.

## Main results

* `Json.fields?_eq_some_iff`: the fields of a record are found in these forms and in no others;
* `Json.hex?_eq_some_iff`: a byte string is read from the strings of its digits, in either case.
-/

namespace SecondFactor.Json

/-- The forms of a record with the given fields. -/
inductive IsRecord (fields : List (String × Json)) : Json → Prop
  /-- The values of the fields in their order. -/
  | array : IsRecord fields (.array (fields.map Prod.snd))
  /-- Each field once under its name, and no other members. -/
  | object {members : List (Bytes × Json)}
      (h : members.Perm (fields.map fun (name, value) => (Text.utf8 name, value))) :
      IsRecord fields (.object members)

theorem isRecord_array_iff {fields : List (String × Json)} {elements : List Json} :
    IsRecord fields (.array elements) ↔ elements = fields.map Prod.snd := by
  constructor
  · rintro ⟨⟩
    rfl
  · rintro rfl
    exact .array

theorem isRecord_object_iff {fields : List (String × Json)} {members : List (Bytes × Json)} :
    IsRecord fields (.object members) ↔
      members.Perm (fields.map fun (name, value) => (Text.utf8 name, value)) := by
  constructor
  · rintro (_ | h)
    exact h
  · exact .object

/-- The members of a record are named as its fields are. -/
theorem IsRecord.perm_names {fields : List (String × Json)} {members : List (Bytes × Json)}
    (h : IsRecord fields (.object members)) :
    (members.map Prod.fst).Perm ((fields.map Prod.fst).map Text.utf8) := by
  have hnames := (isRecord_object_iff.1 h).map Prod.fst
  rw [List.map_map] at hnames ⊢
  exact hnames

/-- Records of one form have the same values, one after the other, or the same names. -/
theorem IsRecord.values_eq_or_perm_names {fields fields' : List (String × Json)} {j : Json}
    (h : IsRecord fields j) (h' : IsRecord fields' j) :
    fields.map Prod.snd = fields'.map Prod.snd ∨
      (fields.map Prod.fst).Perm (fields'.map Prod.fst) := by
  cases h with
  | array => exact .inl (isRecord_array_iff.1 h')
  | object hmembers =>
    have hnames := (object hmembers).perm_names.symm.trans h'.perm_names
    exact .inr ((List.map_perm_map_iff fun _ _ => Text.utf8_injective).1 hnames)

/-! ## Members under their names -/

section Lookup

variable {fields members : List (String × Json)}

/-- A member whose name stands once is found under its name. -/
theorem lookup_eq_some_iff_of_countP {name : String} {value : Json}
    (honce : members.countP (·.1 == name) ≤ 1) :
    members.lookup name = some value ↔ (name, value) ∈ members := by
  induction members with
  | nil => simp
  | cons member rest ih =>
    rw [List.lookup_cons, List.mem_cons]
    by_cases hname : name = member.1
    · subst hname
      have hnone : rest.countP (·.1 == member.1) = 0 := by
        rw [List.countP_cons_of_pos (by simp)] at honce
        omega
      have hnot : (member.1, value) ∉ rest := fun hmem =>
        List.countP_eq_zero.1 hnone _ hmem (beq_self_eq_true _)
      rw [beq_self_eq_true]
      simp [hnot, Prod.ext_iff, eq_comm]
    · rw [beq_false_of_ne hname]
      rw [List.countP_cons_of_neg (by simpa using Ne.symm hname)] at honce
      simp [Prod.ext_iff, hname, ih honce]

/-- Among members with different names, the ones that are found are those that are there. -/
theorem lookup_eq_some_iff (hnodup : (members.map Prod.fst).Nodup) {name : String} {value : Json} :
    members.lookup name = some value ↔ (name, value) ∈ members := by
  refine lookup_eq_some_iff_of_countP ?_
  rw [← count_names]
  exact List.nodup_iff_count_le_one.1 hnodup name

/-- Members are the fields of a record, in some order, exactly if each field is found under its name
and no name stands twice or is that of no field. -/
theorem perm_fields_iff (hnodup : (fields.map Prod.fst).Nodup) :
    members.Perm fields ↔
      (∀ name ∈ fields.map Prod.fst, members.countP (·.1 == name) ≤ 1) ∧
        (∀ member ∈ members, member.1 ∈ fields.map Prod.fst) ∧
        ∀ name ∈ fields.map Prod.fst, members.lookup name = fields.lookup name := by
  constructor
  · intro h
    have hnames := (h.map Prod.fst).nodup_iff.2 hnodup
    refine ⟨fun name _ => ?_, fun member hmember => ?_, fun name _ => ?_⟩
    · rw [← count_names]
      exact List.nodup_iff_count_le_one.1 hnames name
    · exact List.mem_map_of_mem (h.mem_iff.1 hmember)
    · apply Option.ext
      intro value
      rw [lookup_eq_some_iff hnames, lookup_eq_some_iff hnodup, h.mem_iff]
  · rintro ⟨honce, hknown, hfound⟩
    have hnames : (members.map Prod.fst).Nodup := by
      refine List.nodup_iff_count_le_one.2 fun name => ?_
      by_cases hname : name ∈ fields.map Prod.fst
      · rw [count_names]
        exact honce name hname
      · have hnot : name ∉ members.map Prod.fst := by
          intro hmem
          obtain ⟨member, hmember, rfl⟩ := List.mem_map.1 hmem
          exact hname (hknown member hmember)
        rw [List.count_eq_zero_of_not_mem hnot]
        exact Nat.zero_le 1
    refine (List.perm_ext_iff_of_nodup hnames.of_map hnodup.of_map).2 ?_
    rintro ⟨name, value⟩
    by_cases hname : name ∈ fields.map Prod.fst
    · rw [← lookup_eq_some_iff hnames, ← lookup_eq_some_iff hnodup, hfound name hname]
    · refine iff_of_false (fun hmem => hname (hknown _ hmem)) fun hmem => ?_
      exact hname (List.mem_map_of_mem hmem)

end Lookup

/-- The names of members are read as text if they are the forms of some text. -/
theorem textMembers?_eq_some_iff {members : List (Bytes × Json)} {fields : List (String × Json)} :
    textMembers? members = some fields ↔
      members = fields.map fun (name, value) => (Text.utf8 name, value) := by
  constructor
  · intro h
    induction members generalizing fields with
    | nil => cases h; rfl
    | cons member rest ih =>
      rw [textMembers?, List.mapM_cons] at h
      obtain ⟨field, hfield, h⟩ := Option.bind_eq_some_iff.1 h
      obtain ⟨others, hothers, h⟩ := Option.bind_eq_some_iff.1 h
      cases h
      obtain ⟨name, hname, rfl⟩ := Option.map_eq_some_iff.1 hfield
      rw [List.map_cons, ← ih hothers]
      exact congrArg (· :: rest) (Prod.ext (Text.ofUtf8?_eq_some_iff.1 hname) rfl)
  · rintro rfl
    exact textMembers?_utf8 fields

/-- Members whose names are text are a permutation of fields as text. -/
theorem perm_utf8_iff {members : List (Bytes × Json)} {fields : List (String × Json)} :
    members.Perm (fields.map fun (name, value) => (Text.utf8 name, value)) ↔
      ∃ named, textMembers? members = some named ∧ named.Perm fields := by
  simp only [textMembers?_eq_some_iff]
  have hcomp := List.eq_map_comp_perm fun field : String × Json => (Text.utf8 field.1, field.2)
  exact iff_of_eq (congrFun (congrFun hcomp.symm members) fields)

/-! ## The fields of a record -/

section Fields

variable {fields : List (String × Json)}

/-- An array has the fields whose values are its elements. -/
theorem fields?_array_iff {elements : List Json} :
    fields? (fields.map Prod.fst) {} (.array elements) =
        some (fields.map fun field => some field.2) ↔
      elements = fields.map Prod.snd := by
  rw [fields?, List.length_map]
  constructor
  · intro h
    split at h
    · next hlength =>
      -- No element is missing, so nothing is filled in.
      have hlength : elements.length = fields.length := by simpa using hlength
      rw [hlength, Nat.sub_self, List.replicate_zero, List.append_nil, Option.some.injEq] at h
      apply List.map_injective_iff.2 fun _ _ => Option.some.inj
      rw [h, List.map_map]
      rfl
    · cases h
  · rintro rfl
    simp

/-- An object has the fields that are its members in some order. -/
theorem fields?_object_iff (hnodup : (fields.map Prod.fst).Nodup) {members : List (Bytes × Json)} :
    fields? (fields.map Prod.fst) {} (.object members) =
        some (fields.map fun field => some field.2) ↔
      members.Perm (fields.map fun (name, value) => (Text.utf8 name, value)) := by
  rw [perm_utf8_iff, fields?]
  cases textMembers? members with
  | none => simp
  | some named =>
    have honce : ((fields.map Prod.fst).all fun name => named.countP (·.1 == name) ≤ 1) = true ↔
        ∀ name ∈ fields.map Prod.fst, named.countP (·.1 == name) ≤ 1 := by
      simp only [List.all_eq_true, decide_eq_true_eq]
    have hknown : (named.all fun (name, _) => (fields.map Prod.fst).contains name) = true ↔
        ∀ member ∈ named, member.1 ∈ fields.map Prod.fst := by
      simp only [List.all_eq_true, List.contains_iff_mem]
    -- The values that are looked up are those of the fields if each is found where they are.
    have hfound : (fields.map Prod.fst).map (fun name => named.lookup name) =
        fields.map (fun field => some field.2) ↔
        ∀ name ∈ fields.map Prod.fst, named.lookup name = fields.lookup name := by
      rw [← map_lookup_fields hnodup, List.map_inj_left]
    simp only [Option.some.injEq, exists_eq_left', perm_fields_iff hnodup]
    split
    · next h =>
      rw [honce] at h
      simp only [Bool.false_eq_true, false_or, hknown] at h
      rw [Option.some.injEq, hfound]
      exact ⟨fun hlookup => ⟨h.1, h.2, hlookup⟩, fun h => h.2.2⟩
    · next h =>
      rw [honce] at h
      simp only [Bool.false_eq_true, false_or, hknown] at h
      exact iff_of_false (by simp) fun hall => h ⟨hall.1, hall.2.1⟩

/-- The fields of a record, all there, are found in its forms and in no other value. -/
theorem fields?_eq_some_iff (hnodup : (fields.map Prod.fst).Nodup) {j : Json} :
    fields? (fields.map Prod.fst) {} j = some (fields.map fun field => some field.2) ↔
      IsRecord fields j := by
  cases j with
  | array elements => rw [fields?_array_iff, isRecord_array_iff]
  | object members => rw [fields?_object_iff hnodup, isRecord_object_iff]
  | _ =>
    refine iff_of_false (by simp [fields?]) fun h => ?_
    cases h

end Fields

/-- A value has no other fields of the same names than those that are found in it. -/
theorem IsRecord.values_eq {fields fields' : List (String × Json)} {j : Json}
    (h : IsRecord fields j) (h' : IsRecord fields' j)
    (hnames : fields.map Prod.fst = fields'.map Prod.fst)
    (hnodup : (fields.map Prod.fst).Nodup) : fields.map Prod.snd = fields'.map Prod.snd := by
  have hfound := (fields?_eq_some_iff hnodup).2 h
  have hfound' := (fields?_eq_some_iff (hnames ▸ hnodup)).2 h'
  rw [← hnames, hfound, Option.some.injEq] at hfound'
  refine List.map_injective_iff.2 (fun _ _ => Option.some.inj) ?_
  rw [List.map_map, List.map_map]
  exact hfound'

theorem hex?_eq_some_iff {j : Json} {b : Bytes} :
    j.hex? = some b ↔ ∃ digits, j = .string digits ∧ Hex.Denotes digits b := by
  cases j with
  | string content => simp [hex?, Hex.decode?_eq_some_iff]
  | _ => simp [hex?]

/-! ## Reading records -/

section Reading

variable {α β γ : Type} {j : Json}

/-- What is read from a record of one field is made of what is read from the field. -/
theorem single?_eq_some_iff {name : String} {f : Json → Option α} {make : α → β} {b : β} :
    (do let [some field] ← fields? [name] {} j | none
        return make (← f field)) = some b ↔
      ∃ field a, IsRecord [(name, field)] j ∧ f field = some a ∧ make a = b := by
  have hrecord (field : Json) : fields? [name] {} j = some [some field] ↔
      IsRecord [(name, field)] j := by
    have hnodup : ([(name, field)].map Prod.fst).Nodup := List.nodup_singleton name
    exact fields?_eq_some_iff hnodup
  simp only [← hrecord]
  constructor
  · intro h
    obtain ⟨fields, hfields, h⟩ := Option.bind_eq_some_iff.1 h
    split at h
    · next field =>
      obtain ⟨a, ha, h⟩ := Option.bind_eq_some_iff.1 h
      exact ⟨field, a, hfields, ha, Option.some.inj h⟩
    · cases h
  · rintro ⟨field, a, hfields, ha, rfl⟩
    refine Option.bind_eq_some_iff.2 ⟨_, hfields, ?_⟩
    exact Option.bind_eq_some_iff.2 ⟨a, ha, rfl⟩

/-- What is read from a record of two fields is made of what is read from these. -/
theorem pair?_eq_some_iff {first second : String} (hne : first ≠ second) {f : Json → Option α}
    {g : Json → Option β} {make : α → β → γ} {c : γ} :
    (do let [some field, some field'] ← fields? [first, second] {} j | none
        return make (← f field) (← g field')) = some c ↔
      ∃ field field' a b, IsRecord [(first, field), (second, field')] j ∧
        f field = some a ∧ g field' = some b ∧ make a b = c := by
  have hrecord (field field' : Json) :
      fields? [first, second] {} j = some [some field, some field'] ↔
        IsRecord [(first, field), (second, field')] j := by
    have hnodup : ([(first, field), (second, field')].map Prod.fst).Nodup := by simpa using hne
    exact fields?_eq_some_iff hnodup
  simp only [← hrecord]
  constructor
  · intro h
    obtain ⟨fields, hfields, h⟩ := Option.bind_eq_some_iff.1 h
    split at h
    · next field field' =>
      obtain ⟨a, ha, h⟩ := Option.bind_eq_some_iff.1 h
      obtain ⟨b, hb, h⟩ := Option.bind_eq_some_iff.1 h
      exact ⟨field, field', a, b, hfields, ha, hb, Option.some.inj h⟩
    · cases h
  · rintro ⟨field, field', a, b, hfields, ha, hb, rfl⟩
    refine Option.bind_eq_some_iff.2 ⟨_, hfields, ?_⟩
    refine Option.bind_eq_some_iff.2 ⟨a, ha, ?_⟩
    exact Option.bind_eq_some_iff.2 ⟨b, hb, rfl⟩

/-- A list is read from an array of forms of its elements. -/
theorem list?_eq_some_iff {f : Json → Option α} {as : List α} :
    list? f j = some as ↔
      ∃ elements, j = .array elements ∧ List.Forall₂ (fun a e => f e = some a) as elements := by
  have hmapM (elements : List Json) : elements.mapM f = some as ↔
      List.Forall₂ (fun a e => f e = some a) as elements := by
    induction elements generalizing as with
    | nil => cases as <;> simp
    | cons e rest ih =>
      rw [List.mapM_cons]
      constructor
      · intro h
        obtain ⟨a, ha, h⟩ := Option.bind_eq_some_iff.1 h
        obtain ⟨others, hothers, h⟩ := Option.bind_eq_some_iff.1 h
        cases h
        exact .cons ha (ih.1 hothers)
      · rintro (_ | ⟨ha, hothers⟩)
        refine Option.bind_eq_some_iff.2 ⟨_, ha, ?_⟩
        exact Option.bind_eq_some_iff.2 ⟨_, ih.2 hothers, rfl⟩
  cases j with
  | array elements => simp [list?, hmapM]
  | _ => simp [list?]

end Reading

end SecondFactor.Json
