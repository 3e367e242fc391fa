import Chip8.Proofs.LineEnds
import Mathlib.Data.List.Induction

/-! # Letter case — sources that differ only in the case of their letters

    Upper case goes character by character, but a character may become several, and
    different ones the same.  What it never does is touch the characters that divide a
    source: a blank, a line end among them, a comma or a semicolon stays what it is, and no
    other character becomes one.  So a source in upper case falls into lines, words and
    operands just where it did before, and these are the old ones in upper case.  Since a
    statement is looked at in upper case only, sources with the same upper case assemble
    alike, errors and all. -/

namespace Chip8

namespace Text

/-! ## Characters that divide a source -/

/-- Whether a character ends a line, a word, an operand or a statement. -/
def isDivider (c : Char) : Bool := isBlank c || c == ',' || c == ';'

/-- The dividers by code point, as ranges with their first and last. -/
def dividerRanges : List (Nat × Nat) :=
  [(0x9, 0xD), (0x20, 0x20), (0x2C, 0x2C), (0x3B, 0x3B), (0x85, 0x85), (0xA0, 0xA0),
   (0x1680, 0x1680), (0x2000, 0x200A), (0x2028, 0x2029), (0x202F, 0x202F), (0x205F, 0x205F),
   (0x3000, 0x3000)]

theorem exists_dividerRange {c : Char} (h : isDivider c = true) :
    ∃ s ∈ dividerRanges, s.1 ≤ c.toNat ∧ c.toNat ≤ s.2 := by
  simp only [isDivider, isBlank, Bool.or_eq_true, Bool.and_eq_true, decide_eq_true_eq,
    beq_iff_eq] at h
  simp only [dividerRanges, List.mem_cons, List.not_mem_nil, or_false, exists_eq_or_imp,
    exists_eq_left]
  rcases h with (h | rfl) | rfl
  · omega
  · decide
  · decide

/-- A number that stands for a divider lies in one of the ranges. -/
theorem exists_dividerRange_of_ofNat {n : Nat} (h : isDivider (Char.ofNat n) = true) :
    ∃ s ∈ dividerRanges, s.1 ≤ n ∧ n ≤ s.2 := by
  by_cases hvalid : n.isValidChar
  · have hn : (Char.ofNat n).toNat = n := by
      rw [Char.ofNat, dif_pos hvalid]
      rfl
    rw [← hn]
    exact exists_dividerRange h
  -- numbers that are no code points stand for the null character
  · rw [Char.ofNat, dif_neg hvalid] at h
    exact absurd h (by decide)

/-! ## The upper case of a divider, and of any other character -/

/-- No range holds a character that becomes several, or one of those that it becomes. -/
theorem expansions_spare_dividers : ∀ e ∈ caseExpansions, ∀ s ∈ dividerRanges, ∀ n ∈ e.1 :: e.2,
    n < s.1 ∨ s.2 < n := by
  decide +kernel

/-- No range meets a run of characters or the run of their capitals. -/
theorem runs_spare_dividers : ∀ r ∈ caseRuns, ∀ s ∈ dividerRanges,
    (r.last < s.1 ∨ s.2 < r.first) ∧
      (r.capital + (r.last - r.first) < s.1 ∨ s.2 < r.capital) := by
  decide +kernel

theorem expansions_ne_nil : ∀ e ∈ caseExpansions, e.2 ≠ [] := by
  decide +kernel

theorem mem_of_lookup {n : Nat} {images : List Nat}
    (h : caseExpansions.lookup n = some images) : (n, images) ∈ caseExpansions := by
  obtain ⟨front, back, hsplit, -⟩ := List.lookup_eq_some_iff.mp h
  rw [hsplit]
  exact List.mem_append_right front List.mem_cons_self

theorem run_of_find? {n : Nat} {r : CaseRun}
    (h : caseRuns.find? (CaseRun.holds · n) = some r) :
    r ∈ caseRuns ∧ r.first ≤ n ∧ n ≤ r.last := by
  have hholds : r.holds n = true := @List.find?_some _ (CaseRun.holds · n) r caseRuns h
  simp only [CaseRun.holds, Bool.and_eq_true, decide_eq_true_eq] at hholds
  exact ⟨List.mem_of_find?_eq_some h, hholds.1⟩

/-- Of the characters of ASCII, dividers have no capital and are none. -/
theorem toUpper_of_isDivider {c : Char} (hascii : c.toNat < 0x80)
    (h : isDivider c = true ∨ isDivider c.toUpper = true) : c.toUpper = c := by
  have all : ∀ n ∈ List.range 0x80, isDivider (Char.ofNat n) = true ∨
      isDivider (Char.ofNat n).toUpper = true → (Char.ofNat n).toUpper = Char.ofNat n := by
    decide +kernel
  have hc := all c.toNat (List.mem_range.mpr hascii)
  rw [Char.ofNat_toNat] at hc
  exact hc h

/-- The upper case of a divider is the divider. -/
theorem upperChar_of_isDivider {c : Char} (h : isDivider c = true) : upperChar c = [c] := by
  rw [upperChar]
  split
  · rw [toUpper_of_isDivider ‹_› (Or.inl h)]
  obtain ⟨s, hs, hlo, hhi⟩ := exists_dividerRange h
  rw [upperBeyondAscii]
  split
  · rename_i images himages
    have hspared := expansions_spare_dividers _ (mem_of_lookup himages) s hs c.toNat
      List.mem_cons_self
    omega
  · split
    · rename_i run hrun
      obtain ⟨hmem, hfirst, hlast⟩ := run_of_find? hrun
      have hspared := runs_spare_dividers run hmem s hs
      omega
    · rfl

/-- A divider in the upper case of a character is the character itself. -/
theorem eq_of_mem_upperChar {c d : Char} (hd : d ∈ upperChar c) (h : isDivider d = true) :
    d = c := by
  rw [upperChar] at hd
  split at hd
  · obtain rfl := List.mem_singleton.mp hd
    exact toUpper_of_isDivider ‹_› (Or.inr h)
  rw [upperBeyondAscii] at hd
  split at hd
  · rename_i images himages
    obtain ⟨n, hn, rfl⟩ := List.mem_map.mp hd
    obtain ⟨s, hs, hlo, hhi⟩ := exists_dividerRange_of_ofNat h
    have hspared := expansions_spare_dividers _ (mem_of_lookup himages) s hs n
      (List.mem_cons_of_mem _ hn)
    omega
  · split at hd
    · rename_i run hrun
      obtain rfl := List.mem_singleton.mp hd
      obtain ⟨s, hs, hlo, hhi⟩ := exists_dividerRange_of_ofNat h
      obtain ⟨hmem, hfirst, hlast⟩ := run_of_find? hrun
      have hspared := runs_spare_dividers run hmem s hs
      rw [CaseRun.image] at hlo hhi
      omega
    · exact List.mem_singleton.mp hd

/-- The upper case of a character is at least one character. -/
theorem upperChar_ne_nil (c : Char) : upperChar c ≠ [] := by
  rw [upperChar]
  split
  · exact List.cons_ne_nil _ _
  rw [upperBeyondAscii]
  split
  · rename_i images himages
    have hne : images ≠ [] := expansions_ne_nil _ (mem_of_lookup himages)
    simpa using hne
  · split <;> exact List.cons_ne_nil _ _

theorem upper_eq_nil_iff {t : Text} : upper t = [] ↔ t = [] := by
  cases t with
  | nil => exact Iff.rfl
  | cons c r => simp [upperChar_ne_nil]

/-! ## Cutting a text at its dividers -/

/-- A class of dividers, or of all characters but some dividers: upper case does not lead
    into it or out of it. -/
def CaseBlind (p : Char → Bool) : Prop := ∀ c, ∀ d ∈ upperChar c, p d = p c

theorem caseBlind_of_isDivider {p : Char → Bool} (h : ∀ c, p c = true → isDivider c = true) :
    CaseBlind p := by
  intro c d hd
  by_cases hc : p c = true
  · rw [upperChar_of_isDivider (h c hc)] at hd
    rw [List.mem_singleton.mp hd]
  · by_cases hp : p d = true
    · rw [eq_of_mem_upperChar hd (h d hp)]
    · rw [Bool.not_eq_true] at hc hp
      rw [hc, hp]

theorem CaseBlind.not {p : Char → Bool} (h : CaseBlind p) : CaseBlind fun c => !p c :=
  fun c d hd => congrArg (! ·) (h c d hd)

theorem caseBlind_isBlank : CaseBlind isBlank :=
  caseBlind_of_isDivider fun c h => by rw [isDivider, h]; rfl

section Cut

variable {p : Char → Bool} (hp : CaseBlind p)
include hp

theorem takeWhile_upper (t : Text) : (upper t).takeWhile p = upper (t.takeWhile p) := by
  induction t with
  | nil => rfl
  | cons c r ih =>
      rw [upper_cons]
      by_cases hc : p c = true
      · rw [List.takeWhile_append_of_pos fun d hd => (hp c d hd).trans hc, ih,
          List.takeWhile_cons_of_pos hc, upper_cons]
      -- its upper case ends the text at once, as it does itself
      · obtain ⟨d, ds, hupper⟩ := List.exists_cons_of_ne_nil (upperChar_ne_nil c)
        have hd : p d = p c := hp c d (by rw [hupper]; exact List.mem_cons_self)
        rw [hupper, List.cons_append, List.takeWhile_cons_of_neg (by rwa [hd]),
          List.takeWhile_cons_of_neg hc, upper_nil]

theorem dropWhile_upper (t : Text) : (upper t).dropWhile p = upper (t.dropWhile p) := by
  induction t with
  | nil => rfl
  | cons c r ih =>
      rw [upper_cons]
      by_cases hc : p c = true
      · rw [List.dropWhile_append_of_pos fun d hd => (hp c d hd).trans hc, ih,
          List.dropWhile_cons_of_pos hc]
      · obtain ⟨d, ds, hupper⟩ := List.exists_cons_of_ne_nil (upperChar_ne_nil c)
        have hd : p d = p c := hp c d (by rw [hupper]; exact List.mem_cons_self)
        rw [hupper, List.cons_append, List.dropWhile_cons_of_neg (by rwa [hd]),
          List.dropWhile_cons_of_neg hc, upper_cons, hupper, List.cons_append]

end Cut

/-- A text whose end is not blank is not trimmed there. -/
theorem trimEnd_append_of_not_blank {s : Text} (hne : s ≠ [])
    (h : ∀ c ∈ s, isBlank c = false) (t : Text) : trimEnd (t ++ s) = t ++ s := by
  obtain ⟨c, r, hr⟩ := List.exists_cons_of_ne_nil (mt List.reverse_eq_nil_iff.mp hne)
  have hc : isBlank c = false := h c (List.mem_reverse.mp (by rw [hr]; exact List.mem_cons_self))
  rw [trimEnd, List.reverse_append, hr, List.cons_append,
    List.dropWhile_cons_of_neg (by simp [hc]), ← List.cons_append, ← hr, ← List.reverse_append,
    List.reverse_reverse]

theorem trimEnd_upper (t : Text) : trimEnd (upper t) = upper (trimEnd t) := by
  induction t using List.reverseRecOn with
  | nil => rfl
  | append_singleton t c ih =>
      rw [upper_append, upper_cons, upper_nil, List.append_nil]
      cases hc : isBlank c with
      | true =>
          rw [trimEnd_append_blanks fun d hd => (caseBlind_isBlank c d hd).trans hc, ih,
            trimEnd_append_blanks (by simpa using hc)]
      | false =>
          rw [trimEnd_append_of_not_blank (upperChar_ne_nil c)
              fun d hd => (caseBlind_isBlank c d hd).trans hc,
            trimEnd_append_of_not_blank (List.cons_ne_nil c []) (by simpa using hc),
            upper_append, upper_cons, upper_nil, List.append_nil]

theorem trim_upper (t : Text) : trim (upper t) = upper (trim t) := by
  rw [trim, trimStart, dropWhile_upper caseBlind_isBlank, trimEnd_upper, ← trimStart, ← trim]

theorem firstWord_upper (t : Text) : firstWord (upper t) = upper (firstWord t) :=
  takeWhile_upper caseBlind_isBlank.not t

theorem afterFirstWord_upper (t : Text) : afterFirstWord (upper t) = upper (afterFirstWord t) :=
  dropWhile_upper caseBlind_isBlank.not t

/-- The pieces between dividers of one kind are upper-cased with the text. -/
theorem fields_upper {sep : Char} (hsep : isDivider sep = true) (t : Text) :
    fields sep (upper t) = (fields sep t).map upper := by
  induction t with
  | nil => rfl
  | cons c r ih =>
      rw [upper_cons]
      by_cases hc : c = sep
      · rw [hc, upperChar_of_isDivider hsep, List.cons_append, List.nil_append, fields,
          if_pos rfl, ih, fields, if_pos rfl, List.map_cons, upper_nil]
      · have hnone : sep ∉ upperChar c := fun hmem => hc (eq_of_mem_upperChar hmem hsep).symm
        obtain ⟨f, fs, hf⟩ := List.exists_cons_of_ne_nil (fields_ne_nil sep r)
        rw [fields_append_of_not_mem hnone, ih, fields, if_neg hc, hf]
        rfl

end Text

/-! ## Statements and sources in upper case -/

namespace Source

open Text

theorem stripComment_upper (line : Text) :
    stripComment (upper line) = upper (stripComment line) := by
  have hsemicolon : CaseBlind fun c => decide (c ≠ ';') := by
    intro c d hd
    have hiff : d = ';' ↔ c = ';' := by
      constructor
      · rintro rfl
        exact (eq_of_mem_upperChar hd (by decide)).symm
      · rintro rfl
        exact List.mem_singleton.mp (upperChar_of_isDivider (c := ';') (by decide) ▸ hd)
    simp only [ne_eq, hiff]
  rw [stripComment, takeWhile_upper hsemicolon, trim_upper, ← stripComment]

/-- The mnemonic and the operands of a line as it is written. -/
def writtenParts (line : Text) : Text × List Text :=
  let line := trim line
  let rest := trim (afterFirstWord line)
  (firstWord line, if rest = [] then [] else (fields ',' rest).map trim)

/-- The parts of a line in upper case are those of the line that is written in upper
    case. -/
theorem splitLine_eq_writtenParts (line : Text) :
    splitLine line = writtenParts (upper line) := by
  simp only [splitLine, writtenParts, trim_upper, firstWord_upper, afterFirstWord_upper,
    upper_eq_nil_iff, fields_upper (show isDivider ',' = true by decide), List.map_map]
  congr 2
  refine List.map_congr_left fun t _ => ?_
  exact (trim_upper t).symm

/-- The words of lines with the same upper case are the same, and so are the errors. -/
theorem lineWord?_of_upper_eq {s t : Text} (h : upper s = upper t) :
    lineWord? s = lineWord? t := by
  have hcode : upper (stripComment s) = upper (stripComment t) := by
    rw [← stripComment_upper, h, stripComment_upper]
  have hblank : stripComment s = [] ↔ stripComment t = [] := by
    rw [← upper_eq_nil_iff, hcode, upper_eq_nil_iff]
  have hparts : splitLine (stripComment s) = splitLine (stripComment t) := by
    rw [splitLine_eq_writtenParts, hcode, ← splitLine_eq_writtenParts]
  simp only [lineWord?, hblank, hparts]

theorem assembleLines_of_upper_eq {ls ls' : List Text} (h : ls.map upper = ls'.map upper)
    (n : Nat) : assembleLines n ls = assembleLines n ls' := by
  induction ls generalizing ls' n with
  | nil =>
      obtain rfl : ls' = [] := List.map_eq_nil_iff.mp h.symm
      rfl
  | cons line r ih =>
      obtain ⟨line', r', rfl, hline, hr⟩ := List.map_eq_cons_iff.mp h.symm
      rw [assembleLines, assembleLines, lineWord?_of_upper_eq hline.symm, ih hr.symm]

/-- **LETTER CASE DOES NOT COUNT**: two sources with the same upper case, by the full mapping
    of all characters, assemble to the same bytes, or fail on the same line with the same
    error and the same texts in it. -/
theorem assemble_of_upper_eq {s t : Text} (h : upper s = upper t) : assemble s = assemble t := by
  have hpieces : (fields '\n' s).map upper = (fields '\n' t).map upper := by
    rw [← fields_upper (by decide), h, fields_upper (by decide)]
  rw [assemble_eq_fields, assemble_eq_fields, assembleLines_of_upper_eq hpieces]

/-- A long s and a ligature in front of the third line, where one character that becomes two
    is refused: the other spelling has more characters and the same upper case. -/
theorem assemble_of_upper_eq_ligature :
    let s := "ld \uFB06, vb ; \u00DF\n\u017Fhr vb".toList
    let t := "LD ST, VB ; Ss\nSHR VB".toList
    let s' := s ++ "\nse v1, \u0149".toList
    let t' := t ++ "\nSe V1, \u02BCn".toList
    (upper s = upper t ∧ assemble s = .ok [0xFB, 0x18, 0x8B, 0x06] ∧ assemble t = assemble s) ∧
      upper s' = upper t' ∧ assemble s' = .error ⟨3, .invalidValue "\u02BCN".toList⟩ ∧
      assemble t' = assemble s' := by
  intro s t s' t'
  have h : upper t = upper s := by decide +kernel
  have h' : upper t' = upper s' := by decide +kernel
  exact ⟨⟨h.symm, by decide +kernel, assemble_of_upper_eq h⟩, h'.symm, by decide +kernel,
    assemble_of_upper_eq h'⟩

end Source

end Chip8
