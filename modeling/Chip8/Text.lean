/-! # Text — lists of characters, joined and split

    Sources, operands, listings and pictures are lists of characters, so that
    statements about them go by induction.  `Text.join` puts a separator between
    pieces and `Text.fields` cuts at a separator; the first undoes the second, and
    the second the first as long as no piece holds the separator. -/

namespace Chip8

/-- A text, character by character. -/
abbrev Text := List Char

namespace Text

/-- The pieces, one after the other, with the separator between neighbours. -/
def join (sep : Text) : List Text → Text
  | []          => []
  | [t]         => t
  | t :: u :: r => t ++ sep ++ join sep (u :: r)

/-- The pieces between the separators, empty ones included. -/
def fields (sep : Char) : Text → List Text
  | []     => [[]]
  | c :: r =>
    if c = sep then [] :: fields sep r
    else match fields sep r with
      | []      => [[c]]
      | f :: fs => (c :: f) :: fs

theorem fields_ne_nil (sep : Char) (t : Text) : fields sep t ≠ [] := by
  cases t with
  | nil => simp [fields]
  | cons c r =>
    unfold fields
    split
    · simp
    · split <;> simp

/-- A text without the separator is a single piece. -/
theorem fields_of_not_mem {sep : Char} : ∀ {t : Text}, sep ∉ t → fields sep t = [t]
  | [], _ => rfl
  | c :: r, h => by
    have hc : c ≠ sep := fun e => h (by simp [e])
    have hr : sep ∉ r := fun m => h (by simp [m])
    simp [fields, hc, fields_of_not_mem hr]

/-- A separator divides the pieces before it from those behind it. -/
theorem fields_append (sep : Char) (s t : Text) :
    fields sep (s ++ sep :: t) = fields sep s ++ fields sep t := by
  induction s with
  | nil => simp [fields]
  | cons c r ih =>
    by_cases hc : c = sep
    · simp [fields, hc, ih]
    · obtain ⟨f, fs, hr⟩ := List.exists_cons_of_ne_nil (fields_ne_nil sep r)
      rw [hr] at ih
      simp [fields, hc, ih, hr]

/-- There is one piece more than separators. -/
theorem length_fields (sep : Char) (t : Text) : (fields sep t).length = t.count sep + 1 := by
  induction t with
  | nil => rfl
  | cons c r ih =>
    by_cases hc : c = sep
    · simp [fields, hc, ih]
    · obtain ⟨f, fs, hr⟩ := List.exists_cons_of_ne_nil (fields_ne_nil sep r)
      rw [hr] at ih
      simpa [fields, hc, hr] using ih

/-- No piece holds the separator. -/
theorem not_mem_of_mem_fields {sep : Char} {t f : Text} (h : f ∈ fields sep t) : sep ∉ f := by
  induction t generalizing f with
  | nil =>
    obtain rfl := List.mem_singleton.mp h
    exact List.not_mem_nil
  | cons c r ih =>
    by_cases hc : c = sep
    · rw [fields, if_pos hc] at h
      rcases List.mem_cons.mp h with rfl | hr
      · exact List.not_mem_nil
      · exact ih hr
    · obtain ⟨g, gs, hr⟩ := List.exists_cons_of_ne_nil (fields_ne_nil sep r)
      rw [fields, if_neg hc, hr] at h
      rw [hr] at ih
      rcases List.mem_cons.mp h with rfl | hgs
      · have hg : sep ∉ g := ih List.mem_cons_self
        simp [hg, Ne.symm hc]
      · exact ih (List.mem_cons_of_mem g hgs)

/-- The piece before the first separator stands alone. -/
theorem fields_append_cons {sep : Char} {t : Text} (r : Text) (h : sep ∉ t) :
    fields sep (t ++ sep :: r) = t :: fields sep r := by
  rw [fields_append, fields_of_not_mem h, List.singleton_append]

/-- What does not hold the separator lands in front of the first piece. -/
theorem fields_append_of_not_mem {sep : Char} {s : Text} (h : sep ∉ s) (t : Text) :
    fields sep (s ++ t) = (fields sep t).modifyHead (s ++ ·) := by
  induction s with
  | nil => cases hf : fields sep t <;> simp [hf]
  | cons c r ih =>
      have hc : c ≠ sep := fun e => h (e ▸ List.mem_cons_self)
      have hr : sep ∉ r := fun hmem => h (List.mem_cons_of_mem c hmem)
      obtain ⟨f, fs, hf⟩ := List.exists_cons_of_ne_nil (fields_ne_nil sep t)
      rw [List.cons_append, fields, if_neg hc, ih hr, hf]
      rfl

theorem join_ne_nil (sep : Text) {ts : List Text} (hne : ts ≠ []) (h : ∀ t ∈ ts, t ≠ []) :
    join sep ts ≠ [] := by
  cases ts with
  | nil => exact absurd rfl hne
  | cons t r =>
      have ht : t ≠ [] := h t (by simp)
      cases r with
      | nil => exact ht
      | cons u r => simp [join, ht]

/-- Every character of a joined text is one of the separator or one of a piece. -/
theorem mem_join {sep : Text} {ts : List Text} {c : Char} (h : c ∈ join sep ts) :
    c ∈ sep ∨ ∃ t ∈ ts, c ∈ t := by
  induction ts with
  | nil => cases h
  | cons t r ih =>
      cases r with
      | nil => exact .inr ⟨t, by simp, h⟩
      | cons u r =>
          simp only [join, List.mem_append] at h
          rcases h with (ht | hsep) | hrest
          · exact .inr ⟨t, by simp, ht⟩
          · exact .inl hsep
          · rcases ih hrest with hsep | ⟨piece, hmem, hc⟩
            · exact .inl hsep
            · exact .inr ⟨piece, by simp [hmem], hc⟩

/-- Every character of a piece is one of the joined text. -/
theorem mem_join_of_mem (sep : Text) {ts : List Text} {t : Text} {c : Char} (ht : t ∈ ts)
    (hc : c ∈ t) : c ∈ join sep ts := by
  induction ts with
  | nil => cases ht
  | cons u r ih =>
      cases r with
      | nil =>
          obtain rfl := List.mem_singleton.mp ht
          exact hc
      | cons v r =>
          simp only [join, List.mem_append]
          rcases List.mem_cons.mp ht with rfl | hrest
          · exact .inl (.inl hc)
          · exact .inr (ih hrest)

/-- Pieces without the separator come back from the text that joins them. -/
theorem fields_join {sep : Char} {ts : List Text} (hne : ts ≠ [])
    (h : ∀ t ∈ ts, sep ∉ t) : fields sep (join [sep] ts) = ts := by
  induction ts with
  | nil => exact absurd rfl hne
  | cons t r ih =>
    cases r with
    | nil => exact fields_of_not_mem (h t (by simp))
    | cons u r =>
      have hr : ∀ x ∈ u :: r, sep ∉ x := fun x hx => h x (by simp [hx])
      rw [show join [sep] (t :: u :: r) = t ++ sep :: join [sep] (u :: r) by simp [join],
        fields_append_cons _ (h t (by simp)), ih (by simp) hr]

/-- A text is what its pieces make with the separator between them. -/
theorem join_fields (sep : Char) (t : Text) : join [sep] (fields sep t) = t := by
  induction t with
  | nil => rfl
  | cons c r ih =>
    obtain ⟨f, fs, hr⟩ := List.exists_cons_of_ne_nil (fields_ne_nil sep r)
    rw [hr] at ih
    by_cases hc : c = sep
    · rw [fields, if_pos hc, hr]
      simp [join, ih, hc]
    · rw [fields, if_neg hc, hr]
      cases fs with
      | nil => simpa [join] using ih
      | cons g gs => simpa [join] using ih

end Text

end Chip8
