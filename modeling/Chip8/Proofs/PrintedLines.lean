import Chip8.Proofs.Layout

/-! # Printed lines — a mnemonic, operands and a comment, read back

    A line is printed with a blank behind the mnemonic, a comma and a blank between the
    operands, and a comment at its end.  Operands that hold no comma and no semicolon and have
    no blanks at their ends are what stands between the commas, blanks inside of them and empty
    ones included, so reading the line finds the mnemonic and all of them again.  One list is
    lost: a single empty operand leaves nothing behind the mnemonic. -/

namespace Chip8

namespace Source

open Text

/-- A line with its parts apart. -/
def printedLine (mnemonic : Text) (operands : List Text) (comment : Text) : Text :=
  mnemonic ++ ' ' :: join [',', ' '] operands ++ ' ' :: ';' :: comment

/-- What can be printed as an operand: a text without blanks at its ends and without a comma
    or a semicolon. -/
structure Printable (t : Text) : Prop where
  trimmed : Trimmed t
  comma : ',' ∉ t
  semicolon : ';' ∉ t

/-- With two operands or one that is not empty, something stands behind the mnemonic. -/
theorem trim_join_ne_nil {t : Text} {r : List Text} (ht : Trimmed t) (hsingle : t :: r ≠ [[]]) :
    trim (join [',', ' '] (t :: r)) ≠ [] := by
  cases r with
  | nil =>
      show trim t ≠ []
      rw [ht.trim_eq]
      intro hnil
      exact hsingle (by rw [hnil])
  | cons u r =>
      have hcomma : ',' ∈ join [',', ' '] (t :: u :: r) := by simp [join]
      exact trim_ne_nil hcomma (by decide)

/-- The operands that are printed are those that are read. -/
theorem operandsIn_join {operands : List Text} (hprintable : ∀ t ∈ operands, Printable t)
    (hsingle : operands ≠ [[]]) :
    operandsIn (join [',', ' '] operands ++ [' ']) = operands.map upper := by
  have hblank : ∀ c ∈ [' '], isBlank c = true := List.forall_mem_singleton.mpr rfl
  cases operands with
  | nil => rfl
  | cons t r =>
      have hbehind : trim (join [',', ' '] (t :: r) ++ [' ']) ≠ [] := by
        rw [trim_append_blanks hblank]
        exact trim_join_ne_nil (hprintable t List.mem_cons_self).trimmed hsingle
      rw [operandsIn, if_neg hbehind, map_ofOperand_fields_append_blanks hblank]
      refine map_ofOperand_fields_join_of_trimmed (List.cons_ne_nil t r) ?_
      intro u hu
      exact ⟨(hprintable u hu).trimmed, (hprintable u hu).comma⟩

section Line

variable {mnemonic : Text} (hne : mnemonic ≠ [])
  (hmnemonic : ∀ c ∈ mnemonic, isBlank c = false ∧ c ≠ ';')
include hne hmnemonic

/-- A printed line falls into its mnemonic and what is read behind it. -/
theorem splitLine_printedLine {operands : List Text} (h : ∀ t ∈ operands, ';' ∉ t)
    (comment : Text) :
    splitLine (stripComment (printedLine mnemonic operands comment)) =
      (upper mnemonic, operandsIn (join [',', ' '] operands ++ [' '])) := by
  have hspace : Spaces [' '] := by decide
  have hopens : Opens [] mnemonic [' '] :=
    ⟨List.forall_mem_nil _, hne, hmnemonic, List.cons_ne_nil ' ' [], hspace⟩
  have hline : printedLine mnemonic operands comment =
      ([] ++ mnemonic ++ [' '] ++ (join [',', ' '] operands ++ [' '])) ++ ';' :: comment := by
    simp [printedLine]
  have hjoin : ';' ∉ join [',', ' '] operands := by
    intro hmem
    rcases mem_join hmem with hsep | ⟨t, ht, hsemicolon⟩
    · exact absurd hsep (by decide)
    · exact h t ht hsemicolon
  have hcode : ';' ∉ [] ++ mnemonic ++ [' '] ++ (join [',', ' '] operands ++ [' ']) := by
    have hopening := semicolon_not_mem_opens hopens
    simp only [List.mem_append, not_or] at hopening ⊢
    exact ⟨hopening, hjoin, by decide⟩
  rw [hline, stripComment_append_comment, stripComment, code_of_not_mem hcode,
    splitLine_opens hopens]

/-- **PRINTED LINES ARE READ BACK**: a mnemonic without blanks and semicolons, any number of
    printable operands, empty ones included, and any comment make a line that is read as the
    mnemonic and the operands, in order and each in upper case.  Of the one list that is
    excepted, a single empty operand, nothing is read. -/
theorem printed_line_read {operands : List Text} (hoperands : ∀ t ∈ operands, Printable t)
    (comment : Text) :
    (operands ≠ [[]] →
      splitLine (stripComment (printedLine mnemonic operands comment)) =
        (upper mnemonic, operands.map upper)) ∧
    splitLine (stripComment (printedLine mnemonic [[]] comment)) = (upper mnemonic, []) := by
  constructor
  · intro hsingle
    rw [splitLine_printedLine hne hmnemonic fun t ht => (hoperands t ht).semicolon,
      operandsIn_join hoperands hsingle]
  · rw [splitLine_printedLine hne hmnemonic (List.forall_mem_singleton.mpr List.not_mem_nil)]
    rfl

end Line

/-- Empty operands at both ends, blanks inside of another one, and a comment with a comma and
    a semicolon. -/
theorem printed_line_read_empty :
    let mnemonic := "ld".toList
    let operands := [[], "v 1\u3000x".toList, []]
    let comment := ",;c".toList
    printedLine mnemonic operands comment = "ld , v 1\u3000x,  ;,;c".toList ∧
      (mnemonic ≠ [] ∧ (∀ c ∈ mnemonic, isBlank c = false ∧ c ≠ ';')) ∧
      (∀ t ∈ operands, Printable t) ∧ operands ≠ [[]] ∧
      splitLine (stripComment (printedLine mnemonic operands comment)) =
        ("LD".toList, [[], "V 1\u3000X".toList, []]) := by
  intro mnemonic operands comment
  have hne : mnemonic ≠ [] := by decide
  have hmnemonic : ∀ c ∈ mnemonic, isBlank c = false ∧ c ≠ ';' :=
    List.forall_mem_cons.mpr ⟨by decide, List.forall_mem_singleton.mpr (by decide)⟩
  have hnone : Printable [] :=
    ⟨⟨by simp, by simp⟩, List.not_mem_nil, List.not_mem_nil⟩
  have hspaced : Printable "v 1\u3000x".toList := by
    refine ⟨⟨?_, ?_⟩, by decide, by decide⟩
    · rintro c ⟨⟩
      decide
    · rintro c ⟨⟩
      decide
  have hoperands : ∀ t ∈ operands, Printable t :=
    List.forall_mem_cons.mpr ⟨hnone, List.forall_mem_cons.mpr
      ⟨hspaced, List.forall_mem_singleton.mpr hnone⟩⟩
  have hsingle : operands ≠ [[]] := by decide
  refine ⟨by decide, ⟨hne, hmnemonic⟩, hoperands, hsingle, ?_⟩
  rw [(printed_line_read hne hmnemonic hoperands comment).1 hsingle]
  decide

end Source

end Chip8
