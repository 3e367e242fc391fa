import Chip8.Proofs.Concatenation

/-! # Layout — blanks, comments and lines without a statement

    Where the blanks of a line stand does not count, as long as its words stay apart: the
    line is trimmed, the mnemonic ends at the first blank, and every operand is trimmed once
    more.  A comment does not count either, and a line that holds nothing else moves the
    lines below it and changes nothing.  `Relaid` collects the edits of a line that leave
    its statement alone, carriage returns before a line end among them. -/

namespace Chip8

/-! ## Lines and their edits -/

namespace Source

open Text

/-- How a line begins that has a mnemonic and something behind it: blanks perhaps, then the
    mnemonic and then a gap. -/
structure Opens (lead mnemonic gap : Text) : Prop where
  lead : Spaces lead
  mnemonic_ne_nil : mnemonic ≠ []
  mnemonic : ∀ c ∈ mnemonic, isBlank c = false ∧ c ≠ ';'
  gap_ne_nil : gap ≠ []
  gap : Spaces gap

/-- The second line is the first with another layout: with blanks at its start or its end,
    with other blanks between the mnemonic and what follows, with blanks around a comma that
    stands behind the mnemonic and in front of any comment, or with a comment at its end. -/
inductive Relaid : Text → Text → Prop where
  | lead {s : Text} (line : Text) : Spaces s → Relaid line (s ++ line)
  | trail {s : Text} (line : Text) : Spaces s → Relaid line (line ++ s)
  | gap {lead mnemonic s s' : Text} (rest : Text) :
      Opens lead mnemonic s → Opens lead mnemonic s' →
      Relaid (lead ++ mnemonic ++ s ++ rest) (lead ++ mnemonic ++ s' ++ rest)
  | comma {lead mnemonic gap front s s' : Text} (rest : Text) :
      Opens lead mnemonic gap → ';' ∉ front → Spaces s → Spaces s' →
      Relaid (lead ++ mnemonic ++ gap ++ (front ++ ',' :: rest))
        (lead ++ mnemonic ++ gap ++ (front ++ s ++ ',' :: (s' ++ rest)))
  | comment {c : Text} (line : Text) : '\n' ∉ c → Relaid line (line ++ ';' :: c)

/-- Another layout does not add a line. -/
theorem Relaid.not_mem {line line' : Text} (h : Relaid line line') (hline : '\n' ∉ line) :
    '\n' ∉ line' := by
  cases h with
  | lead _ hs => simp [hs.not_mem_newline, hline]
  | trail _ hs => simp [hs.not_mem_newline, hline]
  | gap rest h h' =>
      simp only [List.mem_append, not_or] at hline ⊢
      exact ⟨⟨hline.1.1, h'.gap.not_mem_newline⟩, hline.2⟩
  | comma rest h hfront hs hs' =>
      simp only [List.mem_append, List.mem_cons, not_or] at hline ⊢
      exact ⟨hline.1, ⟨hline.2.1, hs.not_mem_newline⟩, hline.2.2.1, hs'.not_mem_newline,
        hline.2.2.2⟩
  | comment _ hc => simp [hline, hc]

/-! ## What a line says in any layout -/

theorem code_comma {front : Text} (h : ';' ∉ front) (rest : Text) :
    (front ++ ',' :: rest).takeWhile (· ≠ ';') = front ++ ',' :: rest.takeWhile (· ≠ ';') := by
  rw [code_append h, List.takeWhile_cons_of_pos (by decide)]

theorem stripComment_spaces_append {s : Text} (h : Spaces s) (line : Text) :
    stripComment (s ++ line) = stripComment line := by
  rw [stripComment, code_append (h.not_mem (by decide)), trim_blanks_append h.isBlank,
    ← stripComment]

/-- The operands between the commas of a text. -/
def operandsIn (t : Text) : List Text :=
  if trim t = [] then [] else (fields ',' t).map Token.ofOperand

/-- The blanks around a comma do not count. -/
theorem operandsIn_comma (front rest : Text) :
    operandsIn (front ++ ',' :: rest) =
      (fields ',' front).map Token.ofOperand ++ (fields ',' rest).map Token.ofOperand := by
  have hne : trim (front ++ ',' :: rest) ≠ [] :=
    trim_ne_nil (c := ',') (List.mem_append_right front List.mem_cons_self) (by decide)
  rw [operandsIn, if_neg hne, fields_append, List.map_append]

section Opens

variable {lead mnemonic gap : Text} (h : Opens lead mnemonic gap)
include h

theorem semicolon_not_mem_opens : ';' ∉ lead ++ mnemonic ++ gap := by
  have hlead := h.lead.not_mem (d := ';') (by decide)
  have hgap := h.gap.not_mem (d := ';') (by decide)
  have hmnemonic : ';' ∉ mnemonic := fun hmem => (h.mnemonic _ hmem).2 rfl
  simp [hlead, hmnemonic, hgap]

theorem mnemonic_no_blank : ∀ c ∈ mnemonic, isBlank c = false :=
  fun c hc => (h.mnemonic c hc).1

/-- A line that begins so is trimmed to its mnemonic, or to its mnemonic with a gap and the
    trimmed rest behind it. -/
theorem trim_opens (rest : Text) :
    (trim rest = [] ∧ trim (lead ++ mnemonic ++ gap ++ rest) = mnemonic) ∨
      ∃ b s, isBlank b = true ∧ (∀ c ∈ s, isBlank c = true) ∧
        trim (lead ++ mnemonic ++ gap ++ rest) = mnemonic ++ b :: (s ++ trim rest) := by
  have hmnemonic : Trimmed mnemonic := trimmed_of_no_blank (mnemonic_no_blank h)
  obtain ⟨s, s', hs, hs', hrest⟩ := exists_blanks_around rest
  have houter : trim (lead ++ mnemonic ++ gap ++ rest) =
      trim (mnemonic ++ (gap ++ s) ++ trim rest) := by
    calc trim (lead ++ mnemonic ++ gap ++ rest)
        = trim (lead ++ (mnemonic ++ (gap ++ s) ++ trim rest ++ s')) := by
          congr 1
          simp only [List.append_assoc] at hrest ⊢
          rw [← hrest]
      _ = trim (mnemonic ++ (gap ++ s) ++ trim rest) := by
          rw [trim_blanks_append h.lead.isBlank, trim_append_blanks hs']
  have hblanks : ∀ c ∈ gap ++ s, isBlank c = true :=
    List.forall_mem_append.mpr ⟨h.gap.isBlank, hs⟩
  by_cases hnil : trim rest = []
  · refine Or.inl ⟨hnil, ?_⟩
    rw [houter, hnil, List.append_nil, trim_append_blanks hblanks, hmnemonic.trim_eq]
  · obtain ⟨b, gap', rfl⟩ := List.exists_cons_of_ne_nil h.gap_ne_nil
    obtain ⟨hb, hrun⟩ := List.forall_mem_cons.mp hblanks
    refine Or.inr ⟨b, gap' ++ s, hb, hrun, ?_⟩
    rw [houter, (hmnemonic.append (trimmed_trim rest) h.mnemonic_ne_nil hnil _).trim_eq,
      List.append_assoc]
    rfl

/-- Such a line falls into its mnemonic and the operands of the rest. -/
theorem splitLine_opens (rest : Text) :
    splitLine (trim (lead ++ mnemonic ++ gap ++ rest)) = (upper mnemonic, operandsIn rest) := by
  have hword := mnemonic_no_blank h
  rw [splitLine, trim_trim, operandsIn]
  rcases trim_opens h rest with ⟨hnil, hline⟩ | ⟨b, s, hb, hs, hline⟩
  · rw [hline, firstWord_of_no_blank hword, afterFirstWord_of_no_blank hword, if_pos hnil]
    rfl
  · have hrest : trim (b :: (s ++ trim rest)) = trim rest := by
      rw [trim_cons_of_isBlank hb, trim_blanks_append hs, trim_trim]
    rw [hline, firstWord_append_cons hword hb, afterFirstWord_append_cons hword hb]
    simp only [hrest, map_ofOperand_fields_trim]

/-- The word of such a line is that of its mnemonic with the operands in front of the
    comment. -/
theorem lineWord?_opens (rest : Text) :
    lineWord? (lead ++ mnemonic ++ gap ++ rest) =
      (Statement.encode (upper mnemonic) (operandsIn (rest.takeWhile (· ≠ ';')))).map some := by
  have hne : trim (lead ++ mnemonic ++ gap ++ rest.takeWhile (· ≠ ';')) ≠ [] := by
    obtain ⟨c, hc⟩ := List.exists_mem_of_ne_nil mnemonic h.mnemonic_ne_nil
    refine trim_ne_nil (c := c) ?_ (mnemonic_no_blank h c hc)
    simp [hc]
  rw [lineWord?, stripComment, code_append (semicolon_not_mem_opens h)]
  simp only [if_neg hne, splitLine_opens h]

end Opens

/-- Lines that differ in layout only have the same word, or the same error. -/
theorem Relaid.lineWord?_eq {line line' : Text} (h : Relaid line line') :
    lineWord? line' = lineWord? line := by
  cases h with
  | lead _ hs => rw [lineWord?, stripComment_spaces_append hs, ← lineWord?]
  | trail _ hs => rw [lineWord?, stripComment_append_blanks hs.isBlank, ← lineWord?]
  | gap rest h h' => rw [lineWord?_opens h', lineWord?_opens h]
  | comma rest h hfront hs hs' =>
      rename_i front s s'
      have hfront_s : ';' ∉ front ++ s := by simp [hfront, hs.not_mem (d := ';') (by decide)]
      rw [lineWord?_opens h, lineWord?_opens h, code_comma hfront_s, code_comma hfront,
        code_append (hs'.not_mem (by decide)), operandsIn_comma, operandsIn_comma,
        map_ofOperand_fields_append_blanks hs.isBlank,
        map_ofOperand_fields_blanks_append hs'.isBlank]
  | comment _ _ => rw [lineWord?, stripComment_append_comment, ← lineWord?]

/-! ## Sources in another layout -/

/-- Pieces that hold no newline come back from the source that joins them. -/
theorem fields_join_around {before behind : List Text} {line : Text} {source : Text}
    (h : ∀ t ∈ before ++ behind, t ∈ fields '\n' source) (hline : '\n' ∉ line) :
    fields '\n' (join ['\n'] (before ++ line :: behind)) = before ++ line :: behind := by
  refine fields_join (by simp) ?_
  intro t ht
  rcases List.mem_append.mp ht with hbefore | hrest
  · exact not_mem_of_mem_fields (h t (List.mem_append_left behind hbefore))
  · rcases List.mem_cons.mp hrest with rfl | hbehind
    · exact hline
    · exact not_mem_of_mem_fields (h t (List.mem_append_right before hbehind))

/-- Lines are assembled as they are with another layout of one of them. -/
theorem assembleLines_relaid {line line' : Text} (h : Relaid line line') (n : Nat)
    (before behind : List Text) :
    assembleLines n (before ++ line' :: behind) = assembleLines n (before ++ line :: behind) := by
  rw [assembleLines_append, assembleLines_append, assembleLines, assembleLines, h.lineWord?_eq]

theorem assemble_relaid {source line line' : Text} {before behind : List Text}
    (hsource : fields '\n' source = before ++ line :: behind) (h : Relaid line line') :
    assemble (join ['\n'] (before ++ line' :: behind)) = assemble source := by
  have hline : '\n' ∉ line := by
    refine not_mem_of_mem_fields (t := source) ?_
    rw [hsource]
    exact List.mem_append_right before List.mem_cons_self
  have hothers : ∀ t ∈ before ++ behind, t ∈ fields '\n' source := by
    intro t ht
    rw [hsource]
    exact (List.sublist_cons_self line behind).append_left before |>.mem ht
  rw [assemble_eq_fields, assemble_eq_fields, fields_join_around hothers (h.not_mem hline),
    hsource, assembleLines_relaid h]

/-- The error of lines stands on one of them. -/
theorem line_of_error {n : Nat} {ls : List Text} {e : SourceError}
    (h : assembleLines n ls = .error e) : n ≤ e.line ∧ e.line < n + ls.length := by
  obtain ⟨before, line, behind, rfl, hl, -⟩ := assembleLines_eq_error_iff.mp h
  rw [List.length_append, List.length_cons]
  omega

/-- A line without a statement moves what stands below it one line down. -/
theorem assembleLines_idle_cons {line : Text} (h : Idle line) (n : Nat) (ls : List Text) :
    assembleLines n (line :: ls) = (assembleLines n ls).mapError (·.below 1) := by
  have hword : lineWord? line = .ok none := lineWord?_eq_none_iff.mpr h.stripComment_eq
  rw [assembleLines, hword]
  show (assembleLines (n + 1) ls).map ([] ++ ·) = _
  rw [assembleLines_below]
  cases assembleLines n ls <;> rfl

/-- Such a line among others moves the errors of the lines below it, and no others. -/
theorem assembleLines_idle {line : Text} (h : Idle line) (n : Nat) (before behind : List Text) :
    assembleLines n (before ++ line :: behind) =
      (assembleLines n (before ++ behind)).mapError fun e =>
        if n + before.length ≤ e.line then e.below 1 else e := by
  rw [assembleLines_append, assembleLines_append, assembleLines_idle_cons h]
  cases hbefore : assembleLines n before with
  | error e =>
      have habove := (line_of_error hbefore).2
      exact congrArg Except.error (if_neg (by omega)).symm
  | ok x =>
      show ((assembleLines (n + before.length) behind).mapError _).map _ =
        ((assembleLines (n + before.length) behind).map _).mapError _
      cases hbehind : assembleLines (n + before.length) behind with
      | error e =>
          have hbelow := (line_of_error hbehind).1
          exact congrArg Except.error (if_pos hbelow).symm
      | ok y => rfl

/-- A carriage return in front of a line end is a blank of its line. -/
theorem assemble_carriage_return (a b : Text) :
    assemble (a ++ '\r' :: '\n' :: b) = assemble (a ++ '\n' :: b) := by
  have hreturn : '\n' ∉ ['\r'] := by decide
  obtain ⟨front, last, ha, har⟩ := exists_last_field hreturn a
  have hplain : fields '\n' (a ++ '\n' :: b) = front ++ last :: fields '\n' b := by
    rw [fields_append, ha, List.append_assoc]
    rfl
  have hended :
      fields '\n' (a ++ '\r' :: '\n' :: b) = front ++ (last ++ ['\r']) :: fields '\n' b := by
    rw [List.append_cons, fields_append, har, List.append_assoc]
    rfl
  have hspace : Spaces ['\r'] := by
    intro c hc
    obtain rfl := List.mem_singleton.mp hc
    decide
  rw [assemble_eq_fields, assemble_eq_fields, hplain, hended,
    assembleLines_relaid (.trail last hspace)]

/-- **LAYOUT DOES NOT COUNT**: a source with another layout of one of its lines, the pieces
    between its newlines, assembles to the same bytes, or fails on the same line with the
    same error; so does a source of which a line ends with a carriage return.  A blank line
    or a line of comment leaves the bytes as they are, and moves an error one line down
    exactly if it stands above the line that is refused. -/
theorem assemble_layout :
    (∀ (source : Text) (before behind : List Text) (line line' : Text),
      fields '\n' source = before ++ line :: behind → Relaid line line' →
      assemble (join ['\n'] (before ++ line' :: behind)) = assemble source) ∧
    (∀ a b : Text, assemble (a ++ '\r' :: '\n' :: b) = assemble (a ++ '\n' :: b)) ∧
    (∀ (source : Text) (before behind : List Text) (line : Text),
      fields '\n' source = before ++ behind → Idle line →
      let longer := join ['\n'] (before ++ line :: behind)
      (∀ image, assemble source = .ok image → assemble longer = .ok image) ∧
      (∀ l e, assemble source = .error ⟨l, e⟩ →
        assemble longer = .error ⟨if before.length < l then l + 1 else l, e⟩)) := by
  refine ⟨?_, assemble_carriage_return, ?_⟩
  · intro source before behind line line' hsource h
    exact assemble_relaid hsource h
  · intro source before behind line hsource h longer
    have hlonger : assemble longer = (assemble source).mapError fun e =>
        if 1 + before.length ≤ e.line then e.below 1 else e := by
      have hmem : ∀ t ∈ before ++ behind, t ∈ fields '\n' source := by
        intro t ht
        rwa [hsource]
      rw [assemble_eq_fields, assemble_eq_fields, fields_join_around hmem h.not_mem, hsource,
        assembleLines_idle h]
    constructor
    · intro image himage
      rw [hlonger, himage]
      rfl
    · intro l e herror
      rw [hlonger, herror]
      by_cases hl : before.length < l
      · show Except.error (if 1 + before.length ≤ l then _ else _) = _
        rw [if_pos hl, if_pos (by omega)]
        rfl
      · show Except.error (if 1 + before.length ≤ l then _ else _) = _
        rw [if_neg hl, if_neg (by omega)]

/-- A comma with an ideographic space in front of it and a tab behind it, in a line with a
    comment, and a second comment above or below the line that is refused. -/
theorem assemble_layout_comma :
    let line := "ld v1,v2;,x".toList
    let line' := "ld v1\u3000,\tv2;,x".toList
    let note := " ;y".toList
    let source := join ['\n'] [line, "foo".toList]
    (fields '\n' source = [line, "foo".toList] ∧ Relaid line line' ∧ Idle note) ∧
      assemble source = .error ⟨2, .unknownInstruction "FOO".toList⟩ ∧
      assemble (join ['\n'] [line', "foo".toList]) =
        .error ⟨2, .unknownInstruction "FOO".toList⟩ ∧
      assemble (join ['\n'] [line, note, "foo".toList]) =
        .error ⟨3, .unknownInstruction "FOO".toList⟩ ∧
      assemble (join ['\n'] [line, "foo".toList, note]) =
        .error ⟨2, .unknownInstruction "FOO".toList⟩ := by
  intro line line' note source
  have hsource : fields '\n' source = [line, "foo".toList] := by decide
  have hmnemonic : ∀ c ∈ ['l', 'd'], isBlank c = false ∧ c ≠ ';' :=
    List.forall_mem_cons.mpr ⟨by decide, List.forall_mem_singleton.mpr (by decide)⟩
  have hgap : Spaces " ".toList := by decide
  have hopens : Opens [] "ld".toList " ".toList :=
    ⟨List.forall_mem_nil _, by decide, hmnemonic, by decide, hgap⟩
  have hfront : ';' ∉ "v1".toList := by decide
  have hspace : Spaces "\u3000".toList := by decide
  have htab : Spaces "\t".toList := by decide
  have hrelaid : Relaid line line' := .comma "v2;,x".toList hopens hfront hspace htab
  have hnote : '\n' ∉ "y".toList := by decide
  have hidle : Idle note := .comment hgap hnote
  have herror : assemble source = .error ⟨2, .unknownInstruction "FOO".toList⟩ := by decide
  refine ⟨⟨hsource, hrelaid, hidle⟩, herror, ?_, ?_, ?_⟩
  · rw [← herror]
    exact assemble_layout.1 source [] ["foo".toList] line line' hsource hrelaid
  · exact (assemble_layout.2.2 source [line] ["foo".toList] note hsource hidle).2 2 _ herror
  · exact (assemble_layout.2.2 source [line, "foo".toList] [] note hsource hidle).2 2 _ herror

end Source

end Chip8
