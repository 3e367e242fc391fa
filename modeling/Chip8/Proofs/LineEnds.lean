import Chip8.Assembly.Source
import Chip8.Proofs.Trimming

/-! # Line ends — a source cut at its newlines

    A line ends with a newline, or with a carriage return and a newline, and behind the last
    end there need not be anything.  Assembling sees nothing of this: the carriage return
    would be a blank at the end of its line, and an empty line holds no statement.  So a
    source assembles as the pieces between its newlines do, `Source.assemble_eq_fields`.
    A line holds no statement if it is idle: blank, or only a comment. -/

namespace Chip8.Source

open Text

/-- Blanks that do not end the line. -/
def Spaces (s : Text) : Prop := ∀ c ∈ s, isBlank c = true ∧ c ≠ '\n'

instance (s : Text) : Decidable (Spaces s) :=
  List.decidableBAll (fun c => isBlank c = true ∧ c ≠ '\n') s

/-- A line of blanks, or of a comment with blanks in front. -/
inductive Idle : Text → Prop where
  | blank {s : Text} : Spaces s → Idle s
  | comment {s c : Text} : Spaces s → '\n' ∉ c → Idle (s ++ ';' :: c)

theorem Spaces.isBlank {s : Text} (h : Spaces s) : ∀ c ∈ s, Text.isBlank c = true :=
  fun c hc => (h c hc).1

theorem Spaces.not_mem {s : Text} (h : Spaces s) {d : Char} (hd : Text.isBlank d = false) :
    d ∉ s := by
  intro hmem
  rw [h.isBlank d hmem] at hd
  exact Bool.noConfusion hd

theorem Spaces.not_mem_newline {s : Text} (h : Spaces s) : '\n' ∉ s :=
  fun hmem => (h _ hmem).2 rfl

theorem Idle.not_mem {line : Text} (h : Idle line) : '\n' ∉ line := by
  cases h with
  | blank hs => exact hs.not_mem_newline
  | comment hs hc => simp [hs.not_mem_newline, hc]

/-! ## What stands in front of a comment -/

/-- What stands in front of the semicolon stays. -/
theorem code_append {s : Text} (h : ';' ∉ s) (t : Text) :
    (s ++ t).takeWhile (· ≠ ';') = s ++ t.takeWhile (· ≠ ';') := by
  refine List.takeWhile_append_of_pos ?_
  intro c hc
  exact decide_eq_true fun e => h (e ▸ hc)

theorem code_of_not_mem {s : Text} (h : ';' ∉ s) : s.takeWhile (· ≠ ';') = s := by
  simpa using code_append h []

/-- What stands behind a semicolon goes. -/
theorem code_append_of_mem {s : Text} (h : ';' ∈ s) (t : Text) :
    (s ++ t).takeWhile (· ≠ ';') = s.takeWhile (· ≠ ';') := by
  obtain ⟨front, rest, rfl, hfront⟩ := List.eq_append_cons_of_mem h
  rw [List.append_assoc, code_append hfront, code_append hfront]
  rfl

/-- No semicolon is a blank. -/
theorem semicolon_not_mem_blanks {s : Text} (h : ∀ c ∈ s, isBlank c = true) : ';' ∉ s := by
  intro hmem
  exact absurd (h ';' hmem) (by decide)

theorem stripComment_append_blanks {s : Text} (h : ∀ c ∈ s, isBlank c = true) (line : Text) :
    stripComment (line ++ s) = stripComment line := by
  rw [stripComment, stripComment]
  by_cases hline : ';' ∈ line
  -- the blanks belong to the comment
  · rw [code_append_of_mem hline]
  · rw [code_append hline, code_of_not_mem (semicolon_not_mem_blanks h), code_of_not_mem hline,
      trim_append_blanks h]

theorem stripComment_append_comment (line c : Text) :
    stripComment (line ++ ';' :: c) = stripComment line := by
  rw [stripComment, stripComment]
  by_cases hline : ';' ∈ line
  · rw [code_append_of_mem hline]
  · rw [code_append hline, code_of_not_mem hline, List.takeWhile_cons_of_neg (by simp),
      List.append_nil]

theorem Spaces.stripComment_eq {s : Text} (h : Spaces s) : stripComment s = [] := by
  have hnil : stripComment ([] ++ s) = stripComment [] := stripComment_append_blanks h.isBlank []
  exact hnil

theorem spaces_of_trim {s : Text} (hs : '\n' ∉ s) (h : trim s = []) : Spaces s := by
  intro c hc
  refine ⟨?_, fun e => hs (e ▸ hc)⟩
  rw [← Bool.not_eq_false]
  exact fun hcode => trim_ne_nil hc hcode h

/-- An idle line has nothing in front of its comment. -/
theorem Idle.stripComment_eq {line : Text} (h : Idle line) : stripComment line = [] := by
  cases h with
  | blank hs => exact hs.stripComment_eq
  | comment hs _ => rw [stripComment_append_comment, hs.stripComment_eq]

/-- A line with nothing in front of its comment is idle. -/
theorem idle_of_stripComment {line : Text} (hline : '\n' ∉ line) (h : stripComment line = []) :
    Idle line := by
  by_cases hsemicolon : ';' ∈ line
  · obtain ⟨front, rest, rfl, hfront⟩ := List.eq_append_cons_of_mem hsemicolon
    simp only [List.mem_append, List.mem_cons, not_or] at hline
    rw [stripComment_append_comment, stripComment, code_of_not_mem hfront] at h
    exact .comment (spaces_of_trim hline.1 h) hline.2.2
  · rw [stripComment, code_of_not_mem hsemicolon] at h
    exact .blank (spaces_of_trim hline h)

/-! ## Lines and pieces -/

/-- What is left without a carriage return has a blank less at its end, or is the line. -/
theorem exists_withoutReturn_append (line : Text) :
    ∃ s, (∀ c ∈ s, isBlank c = true) ∧ line = withoutReturn line ++ s := by
  rw [withoutReturn]
  split
  · rename_i hlast
    obtain ⟨front, rfl⟩ := List.getLast?_eq_some_iff.mp hlast
    refine ⟨['\r'], List.forall_mem_singleton.mpr (by decide), ?_⟩
    rw [List.dropLast_concat]
  · exact ⟨[], List.forall_mem_nil _, (List.append_nil line).symm⟩

theorem lineWord?_withoutReturn (line : Text) :
    lineWord? (withoutReturn line) = lineWord? line := by
  obtain ⟨s, hs, hline⟩ := exists_withoutReturn_append line
  have hcode : stripComment line = stripComment (withoutReturn line) := by
    conv => lhs; rw [hline, stripComment_append_blanks hs]
  rw [lineWord?, lineWord?, hcode]

/-- Lines assemble as the pieces do that they were made of. -/
theorem assembleLines_linesOf (n : Nat) (pieces : List Text) :
    assembleLines n (linesOf pieces) = assembleLines n pieces := by
  induction pieces generalizing n with
  | nil => rfl
  | cons line r ih =>
      cases r with
      | nil =>
          rw [linesOf]
          split
          -- an empty last piece holds no statement
          · rename_i hnil
            rw [hnil]
            rfl
          · rfl
      | cons next r =>
          rw [linesOf, assembleLines, assembleLines, lineWord?_withoutReturn, ih]
          exact List.cons_ne_nil next r

/-- A source assembles as the pieces between its newlines do. -/
theorem assemble_eq_fields (source : Text) :
    assemble source = assembleLines 1 (fields '\n' source) :=
  assembleLines_linesOf 1 (fields '\n' source)

theorem not_mem_of_mem_linesOf {pieces : List Text} (h : ∀ t ∈ pieces, '\n' ∉ t) :
    ∀ t ∈ linesOf pieces, '\n' ∉ t := by
  induction pieces with
  | nil => exact h
  | cons first r ih =>
      obtain ⟨hfirst, hr⟩ := List.forall_mem_cons.mp h
      cases r with
      | nil =>
          rw [linesOf]
          split
          · exact List.forall_mem_nil _
          · exact h
      | cons next r =>
          obtain ⟨s, -, heq⟩ := exists_withoutReturn_append first
          have hshort : '\n' ∉ withoutReturn first := by
            intro hmem
            refine hfirst ?_
            rw [heq]
            exact List.mem_append_left s hmem
          exact List.forall_mem_cons.mpr ⟨hshort, ih hr⟩

/-- No line holds a newline. -/
theorem not_mem_of_mem_lines {source line : Text} (h : line ∈ lines source) : '\n' ∉ line :=
  not_mem_of_mem_linesOf (fun _ ht => not_mem_of_mem_fields ht) line h

end Chip8.Source
