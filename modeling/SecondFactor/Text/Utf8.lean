import SecondFactor.Bytes

/-!
# Text as Bytes

The UTF-8 form of text and the reading of it. Reading is strict: overlong forms, surrogates and
code points past U+10FFFF are not text. The main statements are `ofUtf8?_eq_some_iff`: reading
succeeds exactly on the written form, and `utf8_eq_append_iff`: forms start with each other as the
texts do.
-/

namespace SecondFactor.Text

/-- The UTF-8 form of a text. -/
def utf8 (s : String) : Bytes :=
  s.toByteArray.data.toList

/-- The text that a byte string is the UTF-8 form of, if there is one. -/
def ofUtf8? (b : Bytes) : Option String :=
  String.fromUTF8? ⟨b.toArray⟩

/-- Reading succeeds exactly on the written form. -/
theorem ofUtf8?_eq_some_iff {b : Bytes} {s : String} : ofUtf8? b = some s ↔ b = utf8 s := by
  unfold ofUtf8? String.fromUTF8? utf8
  constructor
  · intro h
    split at h
    · next valid =>
      obtain rfl := Option.some.inj h
      rfl
    · cases h
  · rintro rfl
    have hs : (⟨s.toByteArray.data.toList.toArray⟩ : ByteArray) = s.toByteArray := rfl
    simp only [hs]
    rw [dif_pos s.isValidUTF8]
    rfl

@[simp] theorem ofUtf8?_utf8 (s : String) : ofUtf8? (utf8 s) = some s :=
  ofUtf8?_eq_some_iff.2 rfl

/-- Texts with the same UTF-8 form are the same. -/
theorem utf8_injective {s t : String} (h : utf8 s = utf8 t) : s = t := by
  have hs := ofUtf8?_utf8 s
  rw [h, ofUtf8?_utf8] at hs
  exact (Option.some.inj hs).symm

/-- The UTF-8 form goes from the start of a text to its end. -/
@[simp] theorem utf8_append (s t : String) : utf8 (s ++ t) = utf8 s ++ utf8 t := by
  simp [utf8]

/-- The UTF-8 form of one text starts with that of another only if the text does. -/
theorem utf8_eq_append_iff {s t : String} {b : Bytes} :
    utf8 t = utf8 s ++ b ↔ ∃ rest, t = s ++ rest ∧ utf8 rest = b := by
  constructor
  · intro h
    have hbytes : s.toList.utf8Encode ++ ⟨b.toArray⟩ = t.toList.utf8Encode := by
      rw [String.utf8Encode_toList, String.utf8Encode_toList]
      ext1
      exact Array.toList_inj.1 (by simpa [utf8] using h.symm)
    -- No character's form is the start of another one's, so the characters agree as well.
    obtain ⟨rest, hrest⟩ := List.isPrefix_of_utf8Encode_append_eq_utf8Encode _ hbytes
    have ht : t = s ++ String.ofList rest := by
      rw [← String.toList_inj, ← hrest, String.toList_append, String.toList_ofList]
    refine ⟨_, ht, ?_⟩
    rw [ht, utf8_append] at h
    exact List.append_cancel_left h
  · rintro ⟨rest, rfl, rfl⟩
    exact utf8_append s rest

end SecondFactor.Text
