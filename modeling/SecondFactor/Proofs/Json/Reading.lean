import SecondFactor.Proofs.Json.Lexemes

/-!
# Reading Values

The reader accepts exactly the spellings of values, each as the value that it spells
(`read?_eq_some_iff`).

* What the reader takes off a document is a spelling of what it returns (`sound`), by induction on
  the bound on its nested calls, for values, elements and members together.
* A spelling is taken off whatever follows it (`Spells.reads`), by induction on the spelling. The
  bound is twice the length of the spelling, which is what `read?` starts with.

So a document spells at most one value, and a spelling behind which more than blanks stand is none
(`Spells.eq_of_append`).
-/

namespace SecondFactor.Json

/-! ## What is read is spelled -/

/-- What the reader of values takes off a document spells the value. -/
def ValueSound (fuel : Nat) : Prop :=
  ∀ b j rest, value? fuel b = some (j, rest) → ∃ text, b = text ++ rest ∧ Spells j text

/-- What the reader of elements takes off a document spells them. -/
def ElementsSound (fuel : Nat) : Prop :=
  ∀ done b j rest, elements? fuel done b = some (j, rest) →
    ∃ items : List (Json × Bytes), items ≠ [] ∧ (∀ item ∈ items, Spells item.1 item.2) ∧
      j = .array (done.reverse ++ items.map Prod.fst) ∧
      b = separated (items.map Prod.snd) ++ byte ']' :: rest

/-- What the reader of members takes off a document spells them. -/
def MembersSound (fuel : Nat) : Prop :=
  ∀ done b j rest, members? fuel done b = some (j, rest) →
    ∃ items : List MemberText, items ≠ [] ∧
      (∀ item ∈ items, SpellsName item.name item.nameText) ∧
      (∀ item ∈ items, Spells item.value item.valueText) ∧
      j = .object (done.reverse ++ items.map MemberText.member) ∧
      b = separated (items.map MemberText.text) ++ byte '\x7d' :: rest

/-- Blanks behind a value belong to its spelling. -/
theorem Spells.append_blanks {j : Json} {text gap : Bytes} (h : Spells j text) (hgap : Blanks gap) :
    Spells j (text ++ gap) := by
  simpa using Spells.padded blanks_nil h hgap

/-- Blanks in front of a value belong to its spelling. -/
theorem Spells.blanks_append {j : Json} {text gap : Bytes} (h : Spells j text) (hgap : Blanks gap) :
    Spells j (gap ++ text) := by
  simpa using Spells.padded hgap h blanks_nil

theorem elementsSound_succ {fuel : Nat} (hvalue : ValueSound fuel)
    (helements : ElementsSound fuel) : ElementsSound (fuel + 1) := by
  intro done b j rest h
  rw [elements?] at h
  split at h
  · cases h
  · -- The blanks behind the element belong to its spelling.
    next element left hread =>
    obtain ⟨text, rfl, htext⟩ := hvalue _ _ _ hread
    split at h
    · cases h
    · next c tail hskip =>
      obtain ⟨gap, hgap, rfl⟩ := exists_gap hskip
      have hitem := htext.append_blanks hgap
      split at h
      · next hcomma =>
        obtain ⟨items, hne, hitems, rfl, rfl⟩ := helements _ _ _ _ h
        refine ⟨(element, text ++ gap) :: items, List.cons_ne_nil _ _,
          List.forall_mem_cons.2 ⟨hitem, hitems⟩, by simp, ?_⟩
        rw [List.map_cons, separated_cons _ (mt List.map_eq_nil_iff.1 hne), hcomma]
        simp
      · split at h
        · next hbracket =>
          cases h
          refine ⟨[(element, text ++ gap)], List.cons_ne_nil _ _,
            List.forall_mem_singleton.2 hitem, by simp, ?_⟩
          rw [List.map_singleton, separated_singleton, hbracket, List.append_assoc]
        · cases h

theorem membersSound_succ {fuel : Nat} (hvalue : ValueSound fuel) (hmembers : MembersSound fuel) :
    MembersSound (fuel + 1) := by
  intro done b j rest h
  rw [members?] at h
  split at h
  · cases h
  split at h
  · next c tail hskip hquote =>
    obtain ⟨before, hbefore, rfl⟩ := exists_gap hskip
    split at h
    · cases h
    next name left hname =>
    obtain ⟨nameText, hspells, hleft⟩ := string?_eq_some_iff.1 hname
    split at h
    · cases h
    next c' tail' hskip' =>
    obtain ⟨after, hafter, rfl⟩ := exists_gap hskip'
    split at h
    · next hcolon =>
      split at h
      · cases h
      next member left' hread =>
      obtain ⟨text, rfl, htext⟩ := hvalue _ _ _ hread
      split at h
      · cases h
      next c'' tail'' hskip'' =>
      obtain ⟨gap, hgap, rfl⟩ := exists_gap hskip''
      -- The member with the blanks that stand between its parts.
      let item : MemberText := ⟨name, before ++ nameText ++ after, member, text ++ gap⟩
      have hnameText : SpellsName item.name item.nameText := .intro hbefore hspells hafter
      have hvalueText : Spells item.value item.valueText := htext.append_blanks hgap
      have htaken : before ++ c :: tail = item.text ++ c'' :: tail'' := by
        rw [hquote, hleft, hcolon]
        simp [item, MemberText.text]
      split at h
      · next hcomma =>
        obtain ⟨items, hne, hnames, hvalues, rfl, rfl⟩ := hmembers _ _ _ _ h
        refine ⟨item :: items, List.cons_ne_nil _ _,
          List.forall_mem_cons.2 ⟨hnameText, hnames⟩,
          List.forall_mem_cons.2 ⟨hvalueText, hvalues⟩, ?_, ?_⟩
        · simp [item, MemberText.member]
        · rw [htaken, List.map_cons, separated_cons _ (mt List.map_eq_nil_iff.1 hne), hcomma]
          simp
      · split at h
        · next hbrace =>
          cases h
          refine ⟨[item], List.cons_ne_nil _ _, List.forall_mem_singleton.2 hnameText,
            List.forall_mem_singleton.2 hvalueText, ?_, ?_⟩
          · simp [item, MemberText.member]
          · rw [htaken, List.map_singleton, separated_singleton, hbrace]
        · cases h
    · cases h
  · cases h

theorem valueSound_succ {fuel : Nat} (helements : ElementsSound fuel)
    (hmembers : MembersSound fuel) : ValueSound (fuel + 1) := by
  intro b j rest h
  rw [value?] at h
  split at h
  · cases h
  next c tail hskip =>
  obtain ⟨gap, hgap, rfl⟩ := exists_gap hskip
  -- It remains to say how the value is spelled behind the blanks.
  suffices hspells : ∃ text, c :: tail = text ++ rest ∧ Spells j text by
    obtain ⟨text, htaken, htext⟩ := hspells
    exact ⟨gap ++ text, by rw [htaken, List.append_assoc], htext.blanks_append hgap⟩
  split at h
  · -- A string.
    next hquote =>
    split at h
    · next content left hstring =>
      cases h
      obtain ⟨text, htext, htaken⟩ := string?_eq_some_iff.1 hstring
      exact ⟨text, hquote ▸ htaken, .string htext⟩
    · cases h
  split at h
  · -- An array, which may end at once.
    next hbracket =>
    split at h
    · cases h
    next d after hafter =>
    split at h
    · next hclose =>
      cases h
      obtain ⟨inner, hinner, rfl⟩ := exists_gap hafter
      exact ⟨_, by simp [hbracket, hclose], .emptyArray hinner⟩
    · obtain ⟨items, hne, hitems, rfl, rfl⟩ := helements _ _ _ _ h
      exact ⟨_, by simp [hbracket], .array hne hitems⟩
  split at h
  · -- An object, which may end at once.
    next hbrace =>
    split at h
    · cases h
    next d after hafter =>
    split at h
    · next hclose =>
      cases h
      obtain ⟨inner, hinner, rfl⟩ := exists_gap hafter
      exact ⟨_, by simp [hbrace, hclose], .emptyObject hinner⟩
    · obtain ⟨items, hne, hnames, hvalues, rfl, rfl⟩ := hmembers _ _ _ _ h
      exact ⟨_, by simp [hbrace], .object hne hnames hvalues⟩
  -- A word, of which the first letter has been compared.
  split at h
  · next hletter =>
    obtain ⟨rfl, rfl⟩ := word?_sound h
    exact ⟨_, by simp [hletter], .null⟩
  split at h
  · next hletter =>
    obtain ⟨rfl, rfl⟩ := word?_sound h
    exact ⟨_, by simp [hletter], .boolTrue⟩
  split at h
  · next hletter =>
    obtain ⟨rfl, rfl⟩ := word?_sound h
    exact ⟨_, by simp [hletter], .boolFalse⟩
  · -- Everything else has to be a number.
    split at h
    · next literal left hnumber =>
      cases h
      obtain ⟨htaken, hliteral⟩ := number?_sound hnumber
      exact ⟨literal, htaken, .number hliteral⟩
    · cases h

/-- Whatever is read is spelled by what is taken off the document. -/
theorem sound (fuel : Nat) : ValueSound fuel ∧ ElementsSound fuel ∧ MembersSound fuel := by
  induction fuel with
  | zero =>
    -- Without a call nothing is read.
    refine ⟨fun _ _ _ h => ?_, fun _ _ _ _ h => ?_, fun _ _ _ _ h => ?_⟩
    · rw [value?] at h
      cases h
    · rw [elements?] at h
      cases h
    · rw [members?] at h
      cases h
  | succ fuel ih =>
    obtain ⟨hvalue, helements, hmembers⟩ := ih
    exact ⟨valueSound_succ helements hmembers, elementsSound_succ hvalue helements,
      membersSound_succ hvalue hmembers⟩

/-! ## What is spelled is read -/

/-- A value may be followed by anything, except that a number has to end. -/
def Ends (j : Json) (rest : Bytes) : Prop :=
  ∀ literal, j = .number literal → EndsNumber rest

theorem ends_of_endsNumber {j : Json} {rest : Bytes} (h : EndsNumber rest) : Ends j rest :=
  fun _ _ => h

/-- The reader of values takes a spelling off the document, and after it at most some blanks, if
its bound is twice the length of the spelling. -/
def Reads (j : Json) (text : Bytes) : Prop :=
  ∀ fuel rest, Ends j rest → 2 * text.length ≤ fuel →
    ∃ left, value? fuel (text ++ rest) = some (j, left) ∧ skipBlanks left = skipBlanks rest

/-- The reader of values skips blanks first. -/
theorem value?_congr {b b' : Bytes} (h : skipBlanks b = skipBlanks b') (fuel : Nat) :
    value? fuel b = value? fuel b' := by
  cases fuel with
  | zero => rw [value?, value?]
  | succ fuel => rw [value?, value?, h]

/-- Which character a value starts with. -/
def Starts : Json → UInt8 → Prop
  | .null, c => c = byte 'n'
  | .bool true, c => c = byte 't'
  | .bool false, c => c = byte 'f'
  | .number _, c => StartsNumber c
  | .string _, c => c = byte '"'
  | .array _, c => c = byte '['
  | .object _, c => c = byte '\x7b'

/-- A value starts with no blank and with no bracket that ends an array. -/
theorem Starts.isBlank_eq {j : Json} {c : UInt8} (h : Starts j c) :
    isBlank c = false ∧ c ≠ byte ']' := by
  cases j with
  | number literal => exact ⟨h.isBlank, h.ne (by decide) (by decide)⟩
  | bool value => cases value <;> cases h <;> decide
  | _ => cases h; decide

/-- What starts with a brace is no number, so anything may follow it. -/
theorem Starts.ends {j : Json} (h : Starts j (byte '\x7b')) (rest : Bytes) : Ends j rest := by
  rintro literal rfl
  exact absurd rfl (StartsNumber.ne h (d := byte '\x7b') (by decide) (by decide))

/-- A spelling has a first character behind its blanks. -/
theorem Spells.exists_cons {j : Json} {text : Bytes} (h : Spells j text) :
    ∃ gap c tail, text = gap ++ c :: tail ∧ Blanks gap ∧ Starts j c := by
  induction h with
  | number h =>
    obtain ⟨c, tail, rfl, hc⟩ := h.exists_cons
    exact ⟨[], c, tail, rfl, blanks_nil, hc⟩
  | string h =>
    obtain ⟨parts, -⟩ := h
    exact ⟨[], _, _, rfl, blanks_nil, rfl⟩
  | @padded j before text after hbefore _ _ ih =>
    obtain ⟨gap, c, tail, rfl, hgap, hc⟩ := ih
    refine ⟨before ++ gap, c, tail ++ after, by simp, ?_, hc⟩
    exact List.forall_mem_append.2 ⟨hbefore, hgap⟩
  | _ => exact ⟨[], _, _, rfl, blanks_nil, rfl⟩

/-- What a value starts with is what is left of its spelling when blanks are skipped. -/
theorem Spells.exists_skipBlanks {j : Json} {text : Bytes} (h : Spells j text) (rest : Bytes) :
    ∃ c tail, skipBlanks (text ++ rest) = c :: tail ∧ Starts j c := by
  obtain ⟨gap, c, tail, rfl, hgap, hc⟩ := h.exists_cons
  refine ⟨c, tail ++ rest, ?_, hc⟩
  rw [List.append_assoc, Json.skipBlanks_append hgap, List.cons_append,
    skipBlanks_cons hc.isBlank_eq.1]

/-- An element before a comma is taken, and more elements have to follow. -/
theorem elements?_more {fuel : Nat} {done : List Json} {b left rest : Bytes} {value : Json}
    (hvalue : value? fuel b = some (value, left)) (hleft : skipBlanks left = byte ',' :: rest) :
    elements? (fuel + 1) done b = elements? fuel (value :: done) rest := by
  rw [elements?, hvalue]
  simp only [hleft, ↓reduceIte]

/-- An element before the closing bracket is the last one. -/
theorem elements?_last {fuel : Nat} {done : List Json} {b left rest : Bytes} {value : Json}
    (hvalue : value? fuel b = some (value, left)) (hleft : skipBlanks left = byte ']' :: rest) :
    elements? (fuel + 1) done b = some (.array (value :: done).reverse, rest) := by
  have hne : byte ']' ≠ byte ',' := by decide
  rw [elements?, hvalue]
  simp only [hleft, if_neg hne, ↓reduceIte]

/-- The elements of an array are read up to its closing bracket. -/
theorem elements?_separated {items : List (Json × Bytes)} (hne : items ≠ [])
    (h : ∀ item ∈ items, Reads item.1 item.2) (fuel : Nat) (done : List Json) (rest : Bytes)
    (hfuel : 2 * (separated (items.map Prod.snd)).length + 1 ≤ fuel) :
    elements? fuel done (separated (items.map Prod.snd) ++ byte ']' :: rest) =
      some (.array (done.reverse ++ items.map Prod.fst), rest) := by
  induction items generalizing fuel done with
  | nil => exact absurd rfl hne
  | cons item others ih =>
    obtain ⟨fuel, rfl⟩ := Nat.exists_eq_succ_of_ne_zero (by omega : fuel ≠ 0)
    obtain ⟨hitem, hothers⟩ := List.forall_mem_cons.1 h
    by_cases hnil : others = []
    · -- The last element ends at the bracket.
      subst hnil
      rw [List.map_singleton, separated_singleton] at hfuel ⊢
      obtain ⟨left, hread, hleft⟩ := hitem fuel (byte ']' :: rest)
        (ends_of_endsNumber (endsNumber_cons (.inr (.inl rfl)) rest)) (by omega)
      rw [elements?_last hread (hleft.trans (skipBlanks_cons (by decide) rest)), List.reverse_cons]
      rfl
    · -- Every other one ends at a comma, which pays for the call that reads on.
      have hsep := separated_cons item.2 (mt List.map_eq_nil_iff.1 hnil : others.map Prod.snd ≠ [])
      rw [List.map_cons, hsep] at hfuel ⊢
      rw [List.length_append, List.length_cons] at hfuel
      rw [List.append_assoc, List.cons_append]
      obtain ⟨left, hread, hleft⟩ := hitem fuel
        (byte ',' :: (separated (others.map Prod.snd) ++ byte ']' :: rest))
        (ends_of_endsNumber (endsNumber_cons (.inl rfl) _)) (by omega)
      rw [elements?_more hread (hleft.trans (skipBlanks_cons (by decide) _)),
        ih hnil hothers fuel (item.1 :: done) (by omega), List.reverse_cons, List.append_assoc]
      rfl

/-- A name and the colon behind it are taken off the members. -/
theorem members?_name {fuel : Nat} {name nameText b left rest : Bytes} {value : Json} {c : UInt8}
    (done : List (Bytes × Json)) (hname : SpellsName name nameText)
    (hvalue : value? fuel b = some (value, left)) (hleft : skipBlanks left = c :: rest) :
    members? (fuel + 1) done (nameText ++ byte ':' :: b) =
      if c = byte ',' then members? fuel ((name, value) :: done) rest
      else if c = byte '\x7d' then some (.object ((name, value) :: done).reverse, rest)
      else none := by
  obtain @⟨before, text, after, hbefore, htext, hafter⟩ := hname
  obtain ⟨tail, rfl, hread⟩ := htext.exists_cons
  have hquote : isBlank (byte '"') = false := by decide
  have hcolon : isBlank (byte ':') = false := by decide
  rw [members?, List.append_assoc, List.append_assoc, skipBlanks_append hbefore, List.cons_append,
    skipBlanks_cons hquote]
  simp only [↓reduceIte, hread, skipBlanks_append hafter, skipBlanks_cons hcolon, hvalue, hleft]

/-- The members of an object are read up to its closing brace. -/
theorem members?_separated {items : List MemberText} (hne : items ≠ [])
    (hnames : ∀ item ∈ items, SpellsName item.name item.nameText)
    (h : ∀ item ∈ items, Reads item.value item.valueText) (fuel : Nat)
    (done : List (Bytes × Json)) (rest : Bytes)
    (hfuel : 2 * (separated (items.map MemberText.text)).length + 1 ≤ fuel) :
    members? fuel done (separated (items.map MemberText.text) ++ byte '\x7d' :: rest) =
      some (.object (done.reverse ++ items.map MemberText.member), rest) := by
  induction items generalizing fuel done with
  | nil => exact absurd rfl hne
  | cons item others ih =>
    obtain ⟨fuel, rfl⟩ := Nat.exists_eq_succ_of_ne_zero (by omega : fuel ≠ 0)
    obtain ⟨hitem, hothers⟩ := List.forall_mem_cons.1 h
    obtain ⟨hname, hnames⟩ := List.forall_mem_cons.1 hnames
    have hlength : item.text.length = item.nameText.length + item.valueText.length + 1 := by
      rw [MemberText.text, List.length_append, List.length_cons]
      omega
    by_cases hnil : others = []
    · -- The last member ends at the brace.
      subst hnil
      rw [List.map_singleton, separated_singleton] at hfuel ⊢
      obtain ⟨left, hread, hleft⟩ := hitem fuel (byte '\x7d' :: rest)
        (ends_of_endsNumber (endsNumber_cons (.inr (.inr rfl)) rest)) (by omega)
      have hmember := members?_name done hname hread
        (hleft.trans (skipBlanks_cons (by decide) rest))
      have hne : byte '\x7d' ≠ byte ',' := by decide
      rw [MemberText.text, List.append_assoc, List.cons_append, hmember, if_neg hne, if_pos rfl,
        List.reverse_cons]
      rfl
    · -- Every other one ends at a comma, which pays for the call that reads on.
      have hsep := separated_cons item.text
        (mt List.map_eq_nil_iff.1 hnil : others.map MemberText.text ≠ [])
      rw [List.map_cons, hsep] at hfuel ⊢
      rw [List.length_append, List.length_cons] at hfuel
      obtain ⟨left, hread, hleft⟩ := hitem fuel
        (byte ',' :: (separated (others.map MemberText.text) ++ byte '\x7d' :: rest))
        (ends_of_endsNumber (endsNumber_cons (.inl rfl) _)) (by omega)
      have hmember := members?_name done hname hread
        (hleft.trans (skipBlanks_cons (by decide) _))
      rw [List.append_assoc, List.cons_append, MemberText.text, List.append_assoc, List.cons_append,
        hmember, if_pos rfl, ih hnil hnames hothers fuel ((item.name, item.value) :: done)
          (by omega), List.reverse_cons, List.append_assoc]
      rfl

/-- A spelling is not empty, so there is fuel for the first call. -/
theorem reads_of_value? {j : Json} {text : Bytes} (hne : text ≠ [])
    (h : ∀ fuel rest, Ends j rest → 2 * text.length ≤ fuel + 1 →
      value? (fuel + 1) (text ++ rest) = some (j, rest)) : Reads j text := by
  intro fuel rest hends hfuel
  have hpos := List.length_pos_of_ne_nil hne
  obtain ⟨fuel, rfl⟩ := Nat.exists_eq_succ_of_ne_zero (by omega : fuel ≠ 0)
  exact ⟨rest, h fuel rest hends hfuel, rfl⟩

theorem reads_number {literal : Bytes} (h : IsNumber literal) :
    Reads (.number literal) literal := by
  obtain ⟨c, tail, rfl, hc⟩ := h.exists_cons
  refine reads_of_value? (List.cons_ne_nil _ _) fun fuel rest hends _ => ?_
  have hnumber := number?_append h (hends _ rfl)
  rw [List.cons_append] at hnumber ⊢
  rw [value?, skipBlanks_cons hc.isBlank]
  simp only [if_neg (hc.ne (d := byte '"') (by decide) (by decide)),
    if_neg (hc.ne (d := byte '[') (by decide) (by decide)),
    if_neg (hc.ne (d := byte '\x7b') (by decide) (by decide)),
    if_neg (hc.ne (d := byte 'n') (by decide) (by decide)),
    if_neg (hc.ne (d := byte 't') (by decide) (by decide)),
    if_neg (hc.ne (d := byte 'f') (by decide) (by decide)), hnumber]

theorem reads_string {content text : Bytes} (h : SpellsString content text) :
    Reads (.string content) text := by
  obtain ⟨tail, rfl, hread⟩ := h.exists_cons
  refine reads_of_value? (List.cons_ne_nil _ _) fun fuel rest _ _ => ?_
  have hquote : isBlank (byte '"') = false := by decide
  rw [List.cons_append, value?, skipBlanks_cons hquote]
  simp only [↓reduceIte, hread]

/-- Behind an opening bracket comes the closing one, or there are elements. -/
theorem value?_bracket {fuel : Nat} {b after : Bytes} {d : UInt8}
    (h : skipBlanks b = d :: after) :
    value? (fuel + 1) (byte '[' :: b) =
      if d = byte ']' then some (.array [], after) else elements? fuel [] b := by
  have hbracket : isBlank (byte '[') = false := by decide
  have hquote : byte '[' ≠ byte '"' := by decide
  rw [value?, skipBlanks_cons hbracket]
  simp only [if_neg hquote, ↓reduceIte, h]

/-- Behind an opening brace comes the closing one, or there are members. -/
theorem value?_brace {fuel : Nat} {b after : Bytes} {d : UInt8}
    (h : skipBlanks b = d :: after) :
    value? (fuel + 1) (byte '\x7b' :: b) =
      if d = byte '\x7d' then some (.object [], after) else members? fuel [] b := by
  have hbrace : isBlank (byte '\x7b') = false := by decide
  have hquote : byte '\x7b' ≠ byte '"' := by decide
  have hbracket : byte '\x7b' ≠ byte '[' := by decide
  rw [value?, skipBlanks_cons hbrace]
  simp only [if_neg hquote, if_neg hbracket, ↓reduceIte, h]

theorem reads_emptyArray {gap : Bytes} (h : Blanks gap) :
    Reads (.array []) (byte '[' :: gap ++ [byte ']']) := by
  refine reads_of_value? (List.cons_ne_nil _ _) fun fuel rest _ _ => ?_
  have hskip : skipBlanks (gap ++ byte ']' :: rest) = byte ']' :: rest := by
    rw [skipBlanks_append h]
    exact skipBlanks_cons (by decide) rest
  rw [List.append_assoc, List.cons_append, List.singleton_append, value?_bracket hskip, if_pos rfl]

theorem reads_emptyObject {gap : Bytes} (h : Blanks gap) :
    Reads (.object []) (byte '\x7b' :: gap ++ [byte '\x7d']) := by
  refine reads_of_value? (List.cons_ne_nil _ _) fun fuel rest _ _ => ?_
  have hskip : skipBlanks (gap ++ byte '\x7d' :: rest) = byte '\x7d' :: rest := by
    rw [skipBlanks_append h]
    exact skipBlanks_cons (by decide) rest
  rw [List.append_assoc, List.cons_append, List.singleton_append, value?_brace hskip, if_pos rfl]

/-- What stands first between brackets or braces. -/
theorem exists_separated (text : Bytes) (others : List Bytes) (tail : Bytes) :
    ∃ rest, separated (text :: others) ++ tail = text ++ rest := by
  by_cases hnil : others = []
  · subst hnil
    exact ⟨tail, by rw [separated_singleton]⟩
  · exact ⟨byte ',' :: separated others ++ tail, by
      rw [separated_cons text hnil, List.append_assoc]⟩

theorem reads_array {items : List (Json × Bytes)} (hne : items ≠ [])
    (h : ∀ item ∈ items, Spells item.1 item.2) (ih : ∀ item ∈ items, Reads item.1 item.2) :
    Reads (.array (items.map Prod.fst))
      (byte '[' :: separated (items.map Prod.snd) ++ [byte ']']) := by
  refine reads_of_value? (List.cons_ne_nil _ _) fun fuel rest _ hfuel => ?_
  simp only [List.length_append, List.length_cons, List.length_nil] at hfuel
  have helements := elements?_separated hne ih fuel [] rest (by omega)
  -- The first element does not start with the bracket that would end the array.
  obtain ⟨item, others, rfl⟩ := List.exists_cons_of_ne_nil hne
  obtain ⟨tail, hfirst⟩ := exists_separated item.2 (others.map Prod.snd) (byte ']' :: rest)
  obtain ⟨c, after, hskip, hstarts⟩ := (h item List.mem_cons_self).exists_skipBlanks tail
  rw [← hfirst] at hskip
  rw [List.map_cons] at helements ⊢
  rw [List.append_assoc, List.cons_append, List.singleton_append, value?_bracket hskip,
    if_neg hstarts.isBlank_eq.2, helements]
  rfl

theorem reads_object {items : List MemberText} (hne : items ≠ [])
    (hnames : ∀ item ∈ items, SpellsName item.name item.nameText)
    (ih : ∀ item ∈ items, Reads item.value item.valueText) :
    Reads (.object (items.map MemberText.member))
      (byte '\x7b' :: separated (items.map MemberText.text) ++ [byte '\x7d']) := by
  refine reads_of_value? (List.cons_ne_nil _ _) fun fuel rest _ hfuel => ?_
  simp only [List.length_append, List.length_cons, List.length_nil] at hfuel
  have hmembers := members?_separated hne hnames ih fuel [] rest (by omega)
  -- The first name starts with no brace that would end the object.
  obtain ⟨item, others, rfl⟩ := List.exists_cons_of_ne_nil hne
  obtain ⟨tail, hfirst⟩ := exists_separated item.text (others.map MemberText.text)
    (byte '\x7d' :: rest)
  have hskip : ∃ after, skipBlanks (item.text ++ tail) = byte '"' :: after := by
    rw [MemberText.text, List.append_assoc]
    exact (hnames item List.mem_cons_self).exists_skipBlanks _
  obtain ⟨after, hskip⟩ := hskip
  rw [← hfirst] at hskip
  have hclose : byte '"' ≠ byte '\x7d' := by decide
  rw [List.map_cons] at hmembers ⊢
  rw [List.append_assoc, List.cons_append, List.singleton_append, value?_brace hskip,
    if_neg hclose, hmembers]
  rfl

theorem Reads.padded {j : Json} {before text after : Bytes} (hbefore : Blanks before)
    (h : Reads j text) (hafter : Blanks after) : Reads j (before ++ text ++ after) := by
  intro fuel rest hends hfuel
  simp only [List.length_append] at hfuel
  -- The blanks in front are skipped, and those behind the value are left with what follows.
  obtain ⟨left, hread, hleft⟩ := h fuel (after ++ rest)
    (fun literal hj => (hends literal hj).blanks_append hafter) (by omega)
  refine ⟨left, ?_, hleft.trans (skipBlanks_append hafter rest)⟩
  rw [← hread]
  apply value?_congr
  rw [List.append_assoc, List.append_assoc, skipBlanks_append hbefore]

/-- Every spelling of a value is read as the value. -/
theorem Spells.reads {j : Json} {text : Bytes} (h : Spells j text) : Reads j text := by
  induction h with
  | null => exact reads_of_value? (List.cons_ne_nil _ _) fun _ _ _ _ => by rw [value?]; rfl
  | boolTrue => exact reads_of_value? (List.cons_ne_nil _ _) fun _ _ _ _ => by rw [value?]; rfl
  | boolFalse => exact reads_of_value? (List.cons_ne_nil _ _) fun _ _ _ _ => by rw [value?]; rfl
  | number h => exact reads_number h
  | string h => exact reads_string h
  | emptyArray h => exact reads_emptyArray h
  | array hne h ih => exact reads_array hne h ih
  | emptyObject h => exact reads_emptyObject h
  | object hne hnames _ ih => exact reads_object hne hnames ih
  | padded hbefore _ hafter ih => exact ih.padded hbefore hafter

/-- A document reads as a value exactly if it is a spelling of the value. -/
theorem read?_eq_some_iff {b : Bytes} {j : Json} : read? b = some j ↔ Spells j b := by
  unfold read?
  constructor
  · intro h
    split at h
    · next value rest hread =>
      split at h
      · next hrest =>
        cases h
        obtain ⟨text, rfl, htext⟩ := (sound _).1 _ _ _ hread
        exact htext.append_blanks (skipBlanks_eq_nil_iff.1 hrest)
      · cases h
    · cases h
  · intro h
    obtain ⟨left, hread, hleft⟩ := h.reads (2 * b.length + 1) []
      (ends_of_endsNumber endsNumber_nil) (by omega)
    rw [List.append_nil] at hread
    rw [hread]
    exact if_pos hleft

/-- A spelling that starts with another one is that one with blanks behind it. -/
theorem Spells.eq_of_append {j j' : Json} {text rest : Bytes} (h : Spells j (text ++ rest))
    (h' : Spells j' text) (hends : Ends j' rest) : j = j' ∧ Blanks rest := by
  have hread := read?_eq_some_iff.2 h
  obtain ⟨left, hvalue, hleft⟩ := h'.reads (2 * (text ++ rest).length + 1) rest hends
    (by rw [List.length_append]; omega)
  rw [read?, hvalue] at hread
  dsimp only at hread
  split at hread
  · next hnil =>
    exact ⟨(Option.some.inj hread).symm, skipBlanks_eq_nil_iff.1 (hleft.symm.trans hnil)⟩
  · cases hread

/-- A value has no other spellings than those of itself. -/
theorem Spells.unique {j j' : Json} {text : Bytes} (h : Spells j text) (h' : Spells j' text) :
    j = j' :=
  Option.some.inj ((read?_eq_some_iff.2 h).symm.trans (read?_eq_some_iff.2 h'))

end SecondFactor.Json
