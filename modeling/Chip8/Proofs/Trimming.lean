import Chip8.Assembly.Statement
import Mathlib.Data.List.TakeWhile

/-! # Trimming — blanks at the ends of texts and of pieces

    Every text is its trimmed part with blanks around it, so trimming does not see blanks
    that are put there, and trimming twice is trimming once.  Blanks beside a separator land
    at the ends of the pieces next to it, where trimming the pieces takes them away: pieces
    that are trimmed one by one do not tell where blanks stood around their separators. -/

namespace Chip8.Text

/-! ## Blanks around a text -/

theorem trim_blanks_append {s : Text} (h : ∀ c ∈ s, isBlank c = true) (t : Text) :
    trim (s ++ t) = trim t := by
  rw [trim, trimStart_append_blanks h, ← trim]

theorem trim_append_blanks {s : Text} (h : ∀ c ∈ s, isBlank c = true) (t : Text) :
    trim (t ++ s) = trim t := by
  rw [trim, trim, trimStart, trimStart, List.dropWhile_append]
  split
  · rename_i hnil
    have hs : s.dropWhile isBlank = [] := List.dropWhile_eq_nil_iff.mpr h
    rw [List.isEmpty_iff.mp hnil, hs]
  · exact trimEnd_append_blanks h _

/-- A text is its trimmed part with blanks around it. -/
theorem exists_blanks_around (t : Text) : ∃ s s' : Text, (∀ c ∈ s, isBlank c = true) ∧
    (∀ c ∈ s', isBlank c = true) ∧ t = s ++ trim t ++ s' := by
  refine ⟨t.takeWhile isBlank, ((trimStart t).reverse.takeWhile isBlank).reverse, ?_, ?_, ?_⟩
  · intro c hc
    exact List.mem_takeWhile_imp hc
  · intro c hc
    exact List.mem_takeWhile_imp (List.mem_reverse.mp hc)
  · rw [List.append_assoc, trim, trimEnd, ← List.reverse_append,
      List.takeWhile_append_dropWhile, List.reverse_reverse, trimStart,
      List.takeWhile_append_dropWhile]

/-- What trimming leaves has no blank at its ends. -/
theorem trimmed_trim (t : Text) : Trimmed (trim t) := by
  have hdrop : ∀ s : Text, ∀ c ∈ (s.dropWhile isBlank).head?, isBlank c = false := by
    intro s c hc
    have hnot := List.head?_dropWhile_not isBlank s
    rw [Option.mem_def.mp hc] at hnot
    simpa using hnot
  constructor
  · intro c hc
    have hprefix : trim t <+: trimStart t := by
      rw [trim, trimEnd, ← List.reverse_suffix, List.reverse_reverse]
      exact List.dropWhile_suffix isBlank
    obtain ⟨r, hr⟩ := hprefix
    refine hdrop t c ?_
    rw [← trimStart, ← hr, List.head?_append, Option.mem_def.mp hc]
    rfl
  · intro c hc
    rw [trim, trimEnd, List.getLast?_reverse] at hc
    exact hdrop _ c hc

/-- A text with something else than blanks in it is not trimmed away. -/
theorem trim_ne_nil {t : Text} {c : Char} (hmem : c ∈ t) (hc : isBlank c = false) :
    trim t ≠ [] := by
  intro hnil
  obtain ⟨s, s', hs, hs', ht⟩ := exists_blanks_around t
  rw [ht, hnil, List.append_nil] at hmem
  have hblank : isBlank c = true := by
    rcases List.mem_append.mp hmem with h | h
    · exact hs c h
    · exact hs' c h
  exact Bool.noConfusion (hc.symm.trans hblank)

theorem trim_trim (t : Text) : trim (trim t) = trim t := (trimmed_trim t).trim_eq

/-! ## Words -/

section Word

variable {w : Text} (h : ∀ c ∈ w, isBlank c = false)
include h

/-- A text without blanks has none at its ends. -/
theorem trimmed_of_no_blank : Trimmed w :=
  ⟨fun c hc => h c (List.mem_of_mem_head? hc), fun c hc => h c (List.mem_of_mem_getLast? hc)⟩

/-- A text without blanks is a single word. -/
theorem firstWord_of_no_blank : firstWord w = w :=
  List.takeWhile_eq_self_iff.mpr fun c hc => by simp [h c hc]

theorem afterFirstWord_of_no_blank : afterFirstWord w = [] :=
  List.dropWhile_eq_nil_iff.mpr fun c hc => by simp [h c hc]

end Word

/-! ## Pieces -/

/-- What does not hold the separator lands behind the last piece. -/
theorem exists_last_field {sep : Char} {s : Text} (h : sep ∉ s) (t : Text) :
    ∃ front last, fields sep t = front ++ [last] ∧
      fields sep (t ++ s) = front ++ [last ++ s] := by
  induction t with
  | nil => exact ⟨[], [], rfl, fields_of_not_mem h⟩
  | cons c r ih =>
      obtain ⟨front, last, hr, hrs⟩ := ih
      by_cases hc : c = sep
      · refine ⟨[] :: front, last, ?_, ?_⟩
        · rw [fields, if_pos hc, hr, List.cons_append]
        · rw [List.cons_append, fields, if_pos hc, hrs, List.cons_append]
      · cases front with
        | nil =>
            refine ⟨[], c :: last, ?_, ?_⟩
            · rw [fields, if_neg hc, hr]
              rfl
            · rw [List.cons_append, fields, if_neg hc, hrs]
              rfl
        | cons f fs =>
            refine ⟨(c :: f) :: fs, last, ?_, ?_⟩
            · rw [fields, if_neg hc, hr]
              rfl
            · rw [List.cons_append, fields, if_neg hc, hrs]
              rfl

section Pieces

variable {s : Text} (h : ∀ c ∈ s, isBlank c = true)
include h

/-- No comma is a blank. -/
theorem comma_not_mem_blanks : ',' ∉ s := by
  intro hmem
  exact absurd (h ',' hmem) (by decide)

/-- Blanks in front of a text between commas are trimmed with the first piece. -/
theorem map_ofOperand_fields_blanks_append (t : Text) :
    (fields ',' (s ++ t)).map Token.ofOperand = (fields ',' t).map Token.ofOperand := by
  obtain ⟨f, fs, hf⟩ := List.exists_cons_of_ne_nil (fields_ne_nil ',' t)
  have hblanks : Token.ofOperand (s ++ f) = Token.ofOperand f :=
    congrArg upper (trim_blanks_append h f)
  rw [fields_append_of_not_mem (comma_not_mem_blanks h), hf, List.modifyHead_cons,
    List.map_cons, List.map_cons, hblanks]

/-- Blanks at its end are trimmed with the last piece. -/
theorem map_ofOperand_fields_append_blanks (t : Text) :
    (fields ',' (t ++ s)).map Token.ofOperand = (fields ',' t).map Token.ofOperand := by
  obtain ⟨front, last, ht, hts⟩ := exists_last_field (comma_not_mem_blanks h) t
  have hblanks : Token.ofOperand (last ++ s) = Token.ofOperand last :=
    congrArg upper (trim_append_blanks h last)
  rw [ht, hts, List.map_append, List.map_append, List.map_singleton, List.map_singleton,
    hblanks]

end Pieces

/-- Trimming a text between commas does not change its trimmed pieces. -/
theorem map_ofOperand_fields_trim (t : Text) :
    (fields ',' (trim t)).map Token.ofOperand = (fields ',' t).map Token.ofOperand := by
  obtain ⟨s, s', hs, hs', ht⟩ := exists_blanks_around t
  calc (fields ',' (trim t)).map Token.ofOperand
      = (fields ',' (s ++ trim t ++ s')).map Token.ofOperand := by
        rw [map_ofOperand_fields_append_blanks hs', map_ofOperand_fields_blanks_append hs]
    _ = (fields ',' t).map Token.ofOperand := by rw [← ht]

/-- Trimmed pieces come back, in upper case, from the text that joins them with a comma and a
    blank, empty ones included. -/
theorem map_ofOperand_fields_join_of_trimmed {ts : List Text} (hne : ts ≠ [])
    (h : ∀ t ∈ ts, Trimmed t ∧ ',' ∉ t) :
    (fields ',' (join [',', ' '] ts)).map Token.ofOperand = ts.map upper := by
  induction ts with
  | nil => exact absurd rfl hne
  | cons t r ih =>
      obtain ⟨ht, hcomma⟩ := h t List.mem_cons_self
      have hoperand : Token.ofOperand t = upper t := by rw [Token.ofOperand, ht.trim_eq]
      cases r with
      | nil =>
          show (fields ',' t).map Token.ofOperand = [upper t]
          rw [fields_of_not_mem hcomma, List.map_singleton, hoperand]
      | cons u r =>
          have hjoin : join [',', ' '] (t :: u :: r) =
              t ++ ',' :: ([' '] ++ join [',', ' '] (u :: r)) := by simp [join]
          rw [hjoin, fields_append_cons _ hcomma, List.map_cons, hoperand,
            map_ofOperand_fields_blanks_append (List.forall_mem_singleton.mpr rfl),
            ih (List.cons_ne_nil u r) fun x hx => h x (List.mem_cons_of_mem t hx)]
          rfl

end Chip8.Text
