import Chip8.Proofs.LineEnds
import Mathlib.Data.List.Forall2

/-! # Concatenation — sources one after the other

    Lines are assembled one by one, and nothing is kept from one line to the next but its
    number.  So a source that is put behind another, on a line of its own, assembles to the
    bytes that it has alone, with its errors as many lines further down as the other
    source has lines; and the first line that is refused, in all, is the error of the
    whole.  What a source assembles to is told line by line: by its first refused line,
    or by the words of its statements. -/

namespace Chip8

/-- The error `n` lines further down. -/
def SourceError.below (e : SourceError) (n : Nat) : SourceError := { e with line := e.line + n }

namespace Source

open Text

/-! ## Lines in a row -/

/-- Counting the lines from further down changes nothing but the line of the error. -/
theorem assembleLines_below (n k : Nat) (ls : List Text) :
    assembleLines (n + k) ls = (assembleLines n ls).mapError (·.below k) := by
  induction ls generalizing n with
  | nil => rfl
  | cons line r ih =>
      rw [assembleLines, assembleLines]
      cases lineWord? line with
      | error e => rfl
      | ok w =>
          show (assembleLines (n + k + 1) r).map _ = ((assembleLines (n + 1) r).map _).mapError _
          rw [Nat.add_right_comm, ih]
          cases assembleLines (n + 1) r <;> rfl

/-- The lines in front are assembled first, and those behind only if they are. -/
theorem assembleLines_append (n : Nat) (s t : List Text) :
    assembleLines n (s ++ t) =
      (assembleLines n s).bind fun x => (assembleLines (n + s.length) t).map (x ++ ·) := by
  induction s generalizing n with
  | nil =>
      show assembleLines n t = (assembleLines n t).map ([] ++ ·)
      cases assembleLines n t <;> rfl
  | cons line r ih =>
      rw [List.cons_append, assembleLines, assembleLines]
      cases lineWord? line with
      | error e => rfl
      | ok w =>
          have hlines : n + (line :: r).length = n + 1 + r.length := by
            rw [List.length_cons]
            omega
          simp only [ih, hlines]
          cases assembleLines (n + 1) r with
          | error e => rfl
          | ok x =>
              show ((assembleLines (n + 1 + r.length) t).map (x ++ ·)).map (bytesOf w ++ ·) =
                (assembleLines (n + 1 + r.length) t).map (bytesOf w ++ x ++ ·)
              cases assembleLines (n + 1 + r.length) t with
              | error e => rfl
              | ok y => exact congrArg Except.ok (List.append_assoc _ x y).symm

/-- A source behind another, on a line of its own. -/
theorem assemble_append (a b : Text) :
    assemble (a ++ '\n' :: b) =
      (assemble a).bind fun x =>
        ((assemble b).mapError (·.below (1 + a.count '\n'))).map (x ++ ·) := by
  have hcount : (fields '\n' a).length = 1 + a.count '\n' := by
    rw [length_fields, Nat.add_comm]
  simp only [assemble_eq_fields]
  rw [fields_append, assembleLines_append, hcount, assembleLines_below]

/-! ## What a source assembles to, line by line -/

/-- The lines are refused for their first one, or for one of those behind it. -/
theorem assembleLines_cons_eq_error_iff {n l : Nat} {line : Text} {r : List Text}
    {e : StatementError} :
    assembleLines n (line :: r) = .error ⟨l, e⟩ ↔
      (lineWord? line = .error e ∧ l = n) ∨
        (∃ w, lineWord? line = .ok w) ∧ assembleLines (n + 1) r = .error ⟨l, e⟩ := by
  rw [assembleLines]
  cases lineWord? line with
  | error cause => simp [eq_comm, and_comm]
  | ok w => cases assembleLines (n + 1) r <;> simp [Except.map]

/-- The lines are assembled if the first one is and those behind it are. -/
theorem assembleLines_cons_eq_ok_iff {n : Nat} {line : Text} {r : List Text}
    {image : List Byte} :
    assembleLines n (line :: r) = .ok image ↔ ∃ w rest, lineWord? line = .ok w ∧
      assembleLines (n + 1) r = .ok rest ∧ image = bytesOf w ++ rest := by
  rw [assembleLines]
  cases lineWord? line with
  | error e => simp
  | ok w => cases assembleLines (n + 1) r <;> simp [Except.map, eq_comm]

/-- Lines are refused at the first line that is, and those behind it are not looked at. -/
theorem assembleLines_eq_error_iff {n l : Nat} {ls : List Text} {e : StatementError} :
    assembleLines n ls = .error ⟨l, e⟩ ↔ ∃ before line behind, ls = before ++ line :: behind ∧
      l = n + before.length ∧ (∀ t ∈ before, ∃ w, lineWord? t = .ok w) ∧
      lineWord? line = .error e := by
  induction ls generalizing n with
  | nil =>
      constructor
      · intro h
        cases h
      · rintro ⟨before, line, behind, h, -⟩
        exact absurd h.symm (List.append_ne_nil_of_right_ne_nil _ (List.cons_ne_nil _ _))
  | cons first r ih =>
      rw [assembleLines_cons_eq_error_iff, ih]
      constructor
      · rintro (⟨hline, rfl⟩ | ⟨hfirst, before, line, behind, rfl, rfl, hbefore, hline⟩)
        · exact ⟨[], first, r, rfl, rfl, List.forall_mem_nil _, hline⟩
        · refine ⟨first :: before, line, behind, rfl, ?_,
            List.forall_mem_cons.mpr ⟨hfirst, hbefore⟩, hline⟩
          rw [List.length_cons]
          omega
      · rintro ⟨before, line, behind, hls, rfl, hbefore, hline⟩
        cases before with
        | nil =>
            obtain ⟨rfl, -⟩ := List.cons.inj hls
            exact Or.inl ⟨hline, rfl⟩
        | cons t before =>
            obtain ⟨rfl, rfl⟩ := List.cons.inj hls
            obtain ⟨hfirst, hrest⟩ := List.forall_mem_cons.mp hbefore
            refine Or.inr ⟨hfirst, before, line, behind, rfl, ?_, hrest, hline⟩
            rw [List.length_cons]
            omega

/-- The lines that hold a statement: those that are not blank when their comment is cut. -/
def statementLines (ls : List Text) : List Text := ls.filter fun line => stripComment line ≠ []

/-- Those are the lines that are neither blank nor only a comment. -/
theorem mem_statementLines {source line : Text} :
    line ∈ statementLines (lines source) ↔ line ∈ lines source ∧ ¬ Idle line := by
  rw [statementLines, List.mem_filter, decide_eq_true_eq]
  refine and_congr_right fun hline => not_congr ⟨?_, Idle.stripComment_eq⟩
  exact idle_of_stripComment (not_mem_of_mem_lines hline)

/-- A line is read without a word if and only if it holds no statement. -/
theorem lineWord?_eq_none_iff {line : Text} :
    lineWord? line = .ok none ↔ stripComment line = [] := by
  by_cases hblank : stripComment line = []
  · exact iff_of_true (if_pos hblank) hblank
  · refine iff_of_false ?_ hblank
    rw [lineWord?, if_neg hblank]
    cases Statement.encode (splitLine (stripComment line)).1 (splitLine (stripComment line)).2 <;>
      simp [Except.map]

/-- Lines are assembled to the words of those that hold a statement, two bytes for each,
    and only if each of them has a word. -/
theorem assembleLines_eq_ok_iff {n : Nat} {ls : List Text} {image : List Byte} :
    assembleLines n ls = .ok image ↔ ∃ words : List Word,
      List.Forall₂ (fun line w => lineWord? line = .ok (some w)) (statementLines ls) words ∧
        image = words.flatMap fun w => [highByte w, lowByte w] := by
  induction ls generalizing n image with
  | nil =>
      constructor
      · intro h
        cases h
        exact ⟨[], .nil, rfl⟩
      · rintro ⟨words, hwords, rfl⟩
        cases hwords
        rfl
  | cons line r ih =>
      rw [assembleLines_cons_eq_ok_iff]
      by_cases hblank : stripComment line = []
      · have hnone : statementLines (line :: r) = statementLines r :=
          List.filter_cons_of_neg (by simp [hblank])
        have hw : lineWord? line = .ok none := lineWord?_eq_none_iff.mpr hblank
        rw [hnone, ← ih (n := n + 1)]
        constructor
        · rintro ⟨w, rest, hline, hrest, rfl⟩
          obtain rfl : none = w := Except.ok.inj (hw.symm.trans hline)
          exact hrest
        · intro hrest
          exact ⟨none, image, hw, hrest, rfl⟩
      · have hsome : statementLines (line :: r) = line :: statementLines r :=
          List.filter_cons_of_pos (by simp [hblank])
        rw [hsome]
        constructor
        · rintro ⟨w, rest, hline, hrest, rfl⟩
          obtain ⟨words, hwords, rfl⟩ := ih.mp hrest
          cases w with
          | none => exact absurd (lineWord?_eq_none_iff.mp hline) hblank
          | some w => exact ⟨w :: words, .cons hline hwords, rfl⟩
        · rintro ⟨words, hwords, rfl⟩
          cases hwords with
          | cons hline hrest => exact ⟨some _, _, hline, ih.mpr ⟨_, hrest, rfl⟩, rfl⟩

/-- **CONCATENATION**: of two sources, one behind the other on a line of its own, the
    error of the first is the error of the whole; if there is none, the error of the second
    is, as many lines further down as the first has lines; and if there is none either, the
    whole assembles to the bytes of the first and then those of the second.  So a source
    fails at its first refused line, counted from one with blank lines and comments, and
    otherwise has two bytes for each line that holds a statement, in order: for each that is
    neither blank nor only a comment. -/
theorem assemble_concatenation :
    (∀ a b : Text,
      let whole := a ++ '\n' :: b
      let n := 1 + a.count '\n'
      (∀ e, assemble a = .error e → assemble whole = .error e) ∧
      (∀ x y, assemble a = .ok x → assemble b = .ok y → assemble whole = .ok (x ++ y)) ∧
      (∀ x l e, assemble a = .ok x → assemble b = .error ⟨l, e⟩ →
        assemble whole = .error ⟨l + n, e⟩)) ∧
    (∀ source l e, assemble source = .error ⟨l, e⟩ ↔
      ∃ before line behind, lines source = before ++ line :: behind ∧ l = 1 + before.length ∧
        (∀ t ∈ before, ∃ w, lineWord? t = .ok w) ∧ lineWord? line = .error e) ∧
    (∀ source image, assemble source = .ok image ↔ ∃ words : List Word,
      List.Forall₂ (fun line w => lineWord? line = .ok (some w))
        (statementLines (lines source)) words ∧
      image = words.flatMap fun w => [highByte w, lowByte w]) ∧
    (∀ source line, line ∈ statementLines (lines source) ↔
      line ∈ lines source ∧ ¬ Idle line) := by
  refine ⟨fun a b => ?_, fun source l e => assembleLines_eq_error_iff,
    fun source image => assembleLines_eq_ok_iff, fun source line => mem_statementLines⟩
  intro whole n
  have hwhole : assemble whole = (assemble a).bind fun x =>
      ((assemble b).mapError (·.below n)).map (x ++ ·) := assemble_append a b
  refine ⟨?_, ?_, ?_⟩
  · intro e ha
    rw [hwhole, ha]
    rfl
  · intro x y ha hb
    rw [hwhole, ha, hb]
    rfl
  · intro x l e ha hb
    rw [hwhole, ha, hb]
    rfl

/-- Two lines, the first with a carriage return at its end, and behind them a comment, a
    blank line and a line that is refused: in all it is the fifth.  An empty source in front
    counts as a line. -/
theorem assemble_concatenation_fifth :
    let a := "cls\r\nret".toList
    let b := "; no bytes\n\nfoo v1\nret".toList
    assemble a = .ok [0x00, 0xE0, 0x00, 0xEE] ∧ assemble [] = .ok [] ∧
      assemble b = .error ⟨3, .unknownInstruction "FOO".toList⟩ ∧
      assemble (a ++ '\n' :: b) = .error ⟨5, .unknownInstruction "FOO".toList⟩ ∧
      assemble ([] ++ '\n' :: b) = .error ⟨4, .unknownInstruction "FOO".toList⟩ ∧
      assemble (a ++ '\n' :: a) = .ok [0x00, 0xE0, 0x00, 0xEE, 0x00, 0xE0, 0x00, 0xEE] ∧
      assemble (b ++ '\n' :: a) = .error ⟨3, .unknownInstruction "FOO".toList⟩ := by
  intro a b
  have ha : assemble a = .ok [0x00, 0xE0, 0x00, 0xEE] := by decide
  have hb : assemble b = .error ⟨3, .unknownInstruction "FOO".toList⟩ := by decide
  have hnil : assemble [] = .ok [] := rfl
  exact ⟨ha, hnil, hb, (assemble_concatenation.1 a b).2.2 _ _ _ ha hb,
    (assemble_concatenation.1 [] b).2.2 _ _ _ hnil hb,
    (assemble_concatenation.1 a a).2.1 _ _ ha ha, (assemble_concatenation.1 b a).1 _ hb⟩

/-- The bytes do not count the lines that are not blank: a comment alone has none. -/
theorem not_two_bytes_for_comment :
    ¬ ∀ source image, assemble source = .ok image →
      image.length = 2 * ((lines source).filter fun line => trim line ≠ []).length := by
  intro h
  have himage : assemble "; x".toList = .ok [] := by decide
  exact absurd (h _ _ himage) (by decide)

end Source

end Chip8
