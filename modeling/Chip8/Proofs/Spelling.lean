import Chip8.Assembly.Source
import Chip8.Proofs.Encoders
import Chip8.Proofs.Trimming
import Mathlib.Algebra.Group.Nat.Defs

/-! # Spelling — the text of an instruction, read back

    An instruction is written with capitals and digits, with blanks and commas
    only between its parts.  So a line that holds the text and nothing else falls
    into the mnemonic and the operands that were written, each operand has the
    shape of what it stands for, and the readers find the values that fit their
    fields.  What comes out is the instruction itself, if its operands are in
    range: `Instruction.lineWord?_text`. -/

namespace Chip8

namespace Text

/-! ## Hexadecimal numbers -/

/-- Digits read as the number that they were taken from, as far as they reach. -/
theorem hexValue_hexDigits (w n : Nat) : hexValue (hexDigits w n) = n % 16 ^ w := by
  induction w generalizing n with
  | zero => simp [hexDigits, hexValue, Nat.mod_one]
  | succ w ih =>
      have hplaces : n % 16 ^ (w + 1) = 16 * (n / 16 % 16 ^ w) + n % 16 := by
        rw [Nat.pow_succ', Nat.mod_mul, Nat.add_comm]
      rw [hplaces, hexDigits, hexValue_append_digit, ih,
        digitValue_hexDigit (Nat.mod_lt n (by decide))]

/-- A number that the given places hold is written with just these. -/
theorem hex_of_lt {w n : Nat} (hw : 0 < w) (hn : n < 16 ^ w) : hex w n = hexDigits w n := by
  -- four bits make a digit
  have hlog : n.log2 < 4 * w := by
    by_cases h0 : n = 0
    · subst h0
      exact Nat.mul_pos (by decide) hw
    · refine (Nat.log2_lt h0).mpr ?_
      rw [Nat.pow_mul]
      exact hn
  rw [hex, Nat.max_eq_left (by omega)]

/-- A number is read back from the digits that it is written with. -/
theorem hexValue_hex (w n : Nat) : hexValue (hex w n) = n := by
  have hreach : n < 16 ^ (n.log2 / 4 + 1) := by
    have hbits : n < 2 ^ (4 * (n.log2 / 4 + 1)) :=
      Nat.lt_of_lt_of_le Nat.lt_log2_self (Nat.pow_le_pow_right (by decide) (by omega))
    rwa [Nat.pow_mul] at hbits
  rw [hex, hexValue_hexDigits]
  exact Nat.mod_eq_of_lt
    (Nat.lt_of_lt_of_le hreach (Nat.pow_le_pow_right (by decide) (Nat.le_max_right _ _)))

/-! ## Capitals and digits -/

/-- A decimal digit or a capital letter of ASCII. -/
def isPlain (c : Char) : Bool :=
  let n := c.toNat
  (48 ≤ n && n ≤ 57) || (65 ≤ n && n ≤ 90)

/-- A text of capitals and digits. -/
def Plain (t : Text) : Prop := ∀ c ∈ t, isPlain c = true

theorem plain_of_all {t : Text} (h : t.all isPlain = true) : Plain t := List.all_eq_true.mp h

theorem toNat_of_isPlain {c : Char} (h : isPlain c = true) :
    (48 ≤ c.toNat ∧ c.toNat ≤ 57) ∨ (65 ≤ c.toNat ∧ c.toNat ≤ 90) := by
  simpa [isPlain] using h

theorem isBlank_of_isPlain {c : Char} (h : isPlain c = true) : isBlank c = false := by
  have hn := toNat_of_isPlain h
  simp [isBlank]
  omega

/-- Upper case leaves capitals and digits alone. -/
theorem upperChar_of_isPlain {c : Char} (h : isPlain c = true) : upperChar c = [c] := by
  have hn := toNat_of_isPlain h
  have hupper : c.toUpper = c := by
    -- only small letters change, and they come after the capitals
    refine dif_neg ?_
    rintro ⟨ha, -⟩
    have ha : 97 ≤ c.toNat := ha
    omega
  rw [upperChar, if_pos (by omega), hupper]

theorem isPlain_hexDigit {d : Nat} (h : d < 16) : isPlain (hexDigit d) = true := by
  have all : ∀ k ∈ List.range 16, isPlain (hexDigit k) = true := by decide
  exact all d (List.mem_range.mpr h)

theorem plain_hex (w n : Nat) : Plain (hex w n) := by
  intro c hc
  obtain ⟨d, hd, rfl⟩ := mem_hexDigits hc
  exact isPlain_hexDigit hd

theorem Plain.cons {c : Char} {t : Text} (hc : isPlain c = true) (ht : Plain t) :
    Plain (c :: t) := List.forall_mem_cons.mpr ⟨hc, ht⟩

/-- A character that is no capital and no digit does not occur. -/
theorem Plain.not_mem {t : Text} (h : Plain t) {c : Char} (hc : isPlain c = false) : c ∉ t :=
  fun hmem => Bool.noConfusion (hc.symm.trans (h c hmem))

theorem Plain.isBlank {t : Text} (h : Plain t) : ∀ c ∈ t, isBlank c = false :=
  fun c hc => isBlank_of_isPlain (h c hc)

theorem Plain.trimmed {t : Text} (h : Plain t) : Trimmed t := trimmed_of_no_blank h.isBlank

theorem Plain.upper {t : Text} (h : Plain t) : Text.upper t = t := by
  induction t with
  | nil => rfl
  | cons c r ih =>
      rw [upper_cons, upperChar_of_isPlain (h c (by simp)), ih fun d hd => h d (by simp [hd])]
      rfl

theorem Plain.ofOperand {t : Text} (h : Plain t) : Token.ofOperand t = t := by
  rw [Token.ofOperand, h.trimmed.trim_eq, h.upper]

/-! ## Operands between commas -/

/-- Plain pieces come back from the text that joins them with a comma and a blank. -/
theorem map_ofOperand_fields_join {ts : List Text} (hne : ts ≠ []) (h : ∀ t ∈ ts, Plain t) :
    (fields ',' (join [',', ' '] ts)).map Token.ofOperand = ts := by
  have hpieces : ∀ t ∈ ts, Trimmed t ∧ ',' ∉ t :=
    fun t ht => ⟨(h t ht).trimmed, (h t ht).not_mem (by decide)⟩
  rw [map_ofOperand_fields_join_of_trimmed hne hpieces]
  exact (List.map_congr_left fun t ht => (h t ht).upper).trans (List.map_id ts)

/-- Trimmed pieces make a trimmed text, whatever separates them. -/
theorem trimmed_join (sep : Text) {ts : List Text} (h : ∀ t ∈ ts, Trimmed t ∧ t ≠ []) :
    Trimmed (join sep ts) := by
  induction ts with
  | nil => exact ⟨by simp [join], by simp [join]⟩
  | cons t r ih =>
      obtain ⟨ht, hne⟩ := h t (by simp)
      cases r with
      | nil => exact ht
      | cons u r =>
          have hr : ∀ x ∈ u :: r, Trimmed x ∧ x ≠ [] := fun x hx => h x (by simp [hx])
          have hrne : join sep (u :: r) ≠ [] :=
            join_ne_nil sep (List.cons_ne_nil u r) fun x hx => (hr x hx).2
          exact ht.append (ih hr) hne hrne sep

end Text

/-! ## Operands -/

namespace Operand

/-- The shape of the text of an operand. -/
def shape : Operand → Shape
  | .reg _   => .register
  | .byte _  => .byte
  | .digit _ => .byte
  | .addr _  => .address
  | .index   => .index
  | .delay   => .delay
  | .sound   => .sound
  | .key     => .key
  | .font    => .font
  | .decimal => .decimal

/-- A register is written with a single digit if there is such a register. -/
theorem text_reg {x : Byte} (h : x.toNat < 16) : (reg x).text = ['V', Text.hexDigit x.toNat] := by
  rw [text, Text.hex_of_lt (by decide) h, Text.hexDigits, Text.hexDigits, Nat.mod_eq_of_lt h]
  rfl

theorem number_of_lt {w n : Nat} (hw : 0 < w) (hn : n < 16 ^ w) :
    number w n = '0' :: 'X' :: Text.hexDigits w n := by
  rw [number, Text.hex_of_lt hw hn]

theorem plain_text (o : Operand) : Text.Plain o.text := by
  have hnumber : ∀ w n, Text.Plain (number w n) := fun w n =>
    .cons (by decide) (.cons (by decide) (Text.plain_hex w n))
  cases o with
  | reg x => exact .cons (by decide) (Text.plain_hex 1 x.toNat)
  | byte k => exact hnumber 2 k.toNat
  | digit n => exact hnumber 1 n.toNat
  | addr a => exact hnumber 3 a.toNat
  | _ => exact Text.plain_of_all (by decide)

theorem text_ne_nil (o : Operand) : o.text ≠ [] := by
  cases o <;> exact List.cons_ne_nil _ _

/-- A number with its mark is no keyword and no register. -/
theorem shape_number (w n : Nat) : Token.shape (number w n) = Token.numberShape (number w n) := rfl

theorem numberShape_number {w n : Nat} (hw : 0 < w) (hn : n < 16 ^ w) :
    Token.numberShape (number w n) = if w = 3 then .address else .byte := by
  rw [number_of_lt hw hn]
  simp only [Token.numberShape, Token.unmarked, Text.length_hexDigits,
    Text.all_isHexDigit_hexDigits, and_true]

/-- The text of an operand in range has the shape of the operand. -/
theorem shape_text {o : Operand} (h : o.InRange) : Token.shape o.text = o.shape := by
  cases o with
  | reg x =>
      rw [text_reg h, Token.shape, if_pos (Text.isHexDigit_hexDigit h)]
      rfl
  | byte k => exact (shape_number _ _).trans (numberShape_number (by decide) k.isLt)
  | digit n => exact (shape_number _ _).trans (numberShape_number (by decide) h)
  | addr a => exact (shape_number _ _).trans (numberShape_number (by decide) h)
  | _ => rfl

/-- Digits behind a mark, or without one, are read as their number. -/
theorem number?_of_unmarked {t : Text} {w n : Nat} (ht : Token.unmarked t = Text.hexDigits w n)
    (hw : 0 < w) (h8 : w ≤ 8) (hn : n < 16 ^ w) : Token.number? t = some n := by
  have hne : Text.hexDigits w n ≠ [] := by
    intro hnil
    have hlen := Text.length_hexDigits w n
    rw [hnil] at hlen
    exact absurd hlen (Nat.ne_of_lt hw)
  have hdigits : Text.hexDigits w n ≠ [] ∧ (Text.hexDigits w n).length ≤ 8 ∧
      (Text.hexDigits w n).all Text.isHexDigit = true :=
    ⟨hne, by rwa [Text.length_hexDigits], Text.all_isHexDigit_hexDigits w n⟩
  simp only [Token.number?, ht]
  rw [if_pos hdigits, Text.hexValue_hexDigits, Nat.mod_eq_of_lt hn]

theorem number?_number {w n : Nat} (hw : 0 < w) (h8 : w ≤ 8) (hn : n < 16 ^ w) :
    Token.number? (number w n) = some n := by
  refine number?_of_unmarked ?_ hw h8 hn
  rw [number_of_lt hw hn, Token.unmarked]

/-- A single digit has no mark in front. -/
theorem unmarked_singleton (c : Char) : Token.unmarked [c] = [c] := by
  unfold Token.unmarked
  split
  · rename_i h
    cases h
  · rfl

theorem register_text {x : Byte} (h : x.toNat < 16) :
    Token.register (reg x).text = .ok x := by
  have hdigits : Token.unmarked [Text.hexDigit x.toNat] = Text.hexDigits 1 x.toNat := by
    rw [unmarked_singleton, Text.hexDigits, Text.hexDigits, Nat.mod_eq_of_lt h]
    rfl
  have hindex : Token.registerIndex? (reg x).text = some x.toNat := by
    rw [text_reg h, Token.registerIndex?, if_pos (unmarked_singleton _),
      number?_of_unmarked hdigits (by decide) (by decide) h]
  rw [Token.register, hindex]
  dsimp only
  rw [if_pos (by omega), BitVec.ofNat_toNat, BitVec.setWidth_eq]

theorem value_text (k : Byte) : Token.value (byte k).text = .ok k := by
  have hk := k.isLt
  rw [text, Token.value, number?_number (by decide) (by decide) hk]
  dsimp only
  rw [if_pos (by omega), BitVec.ofNat_toNat, BitVec.setWidth_eq]

theorem nibble_text {n : Byte} (h : n.toNat < 16) : Token.nibble (digit n).text = .ok n := by
  rw [text, Token.nibble, number?_number (by decide) (by decide) h]
  dsimp only
  rw [if_pos (by omega), BitVec.ofNat_toNat, BitVec.setWidth_eq]

theorem address_text {a : Word} (h : a.toNat < 4096) : Token.address (addr a).text = .ok a := by
  rw [text, Token.address, number?_number (by decide) (by decide) h]
  dsimp only
  rw [if_pos (by omega), BitVec.ofNat_toNat, BitVec.setWidth_eq]

end Operand

/-! ## Statements -/

namespace Mnemonic

theorem plain_name (m : Mnemonic) : Text.Plain m.name := by
  cases m <;> exact Text.plain_of_all (by decide)

theorem name_ne_nil (m : Mnemonic) : m.name ≠ [] := by
  cases m <;> exact List.cons_ne_nil _ _

/-- No mnemonic's name is one of the longer names. -/
theorem canonical_name (m : Mnemonic) : canonical m.name = m.name := by
  have hlookup : aliases.lookup m.name = none := by cases m <;> decide
  simp only [canonical, m.plain_name.trimmed.trim_eq, m.plain_name.upper, hlookup]

end Mnemonic

section Statement

variable (m : Mnemonic) (ops : List Operand)

/-- A statement consists of capitals, digits, blanks and commas. -/
theorem mem_statementText {c : Char} (h : c ∈ statementText m ops) :
    Text.isPlain c = true ∨ c = ' ' ∨ c = ',' := by
  cases ops with
  | nil => exact .inl (m.plain_name c h)
  | cons o r =>
      rcases List.mem_append.mp h with hname | hrest
      · exact .inl (m.plain_name c hname)
      rcases List.mem_cons.mp hrest with rfl | hops
      · exact .inr (.inl rfl)
      rcases Text.mem_join hops with hsep | ⟨t, ht, hc⟩
      · simp only [List.mem_cons, List.not_mem_nil, or_false] at hsep
        exact .inr hsep.symm
      · obtain ⟨o', -, rfl⟩ := List.mem_map.mp ht
        exact .inl (o'.plain_text c hc)

theorem not_mem_statementText {c : Char} (hplain : Text.isPlain c = false)
    (hblank : c ≠ ' ') (hcomma : c ≠ ',') : c ∉ statementText m ops := by
  intro h
  rcases mem_statementText m ops h with hc | hc | hc
  · exact Bool.noConfusion (hplain.symm.trans hc)
  · exact hblank hc
  · exact hcomma hc

theorem statementText_ne_nil : statementText m ops ≠ [] := by
  cases ops with
  | nil => exact m.name_ne_nil
  | cons o r => exact List.append_ne_nil_of_left_ne_nil m.name_ne_nil _

/-- There are no blanks around the operands. -/
theorem trimmed_operands : Text.Trimmed (Text.join [',', ' '] (ops.map Operand.text)) := by
  refine Text.trimmed_join _ fun t ht => ?_
  obtain ⟨o, -, rfl⟩ := List.mem_map.mp ht
  exact ⟨o.plain_text.trimmed, o.text_ne_nil⟩

theorem operands_ne_nil (hne : ops ≠ []) :
    Text.join [',', ' '] (ops.map Operand.text) ≠ [] := by
  refine Text.join_ne_nil _ (by simpa using hne) fun t ht => ?_
  obtain ⟨o, -, rfl⟩ := List.mem_map.mp ht
  exact o.text_ne_nil

/-- There are no blanks around a statement. -/
theorem trimmed_statementText : Text.Trimmed (statementText m ops) := by
  cases ops with
  | nil => exact m.plain_name.trimmed
  | cons o r =>
      have h := m.plain_name.trimmed.append (trimmed_operands (o :: r)) m.name_ne_nil
        (operands_ne_nil (o :: r) (List.cons_ne_nil o r)) [' ']
      rwa [List.append_assoc] at h

/-- A statement holds no comment. -/
theorem stripComment_statementText :
    Source.stripComment (statementText m ops) = statementText m ops := by
  have hnone : ∀ c ∈ statementText m ops, decide (c ≠ ';') = true := fun c hc =>
    decide_eq_true fun e =>
      not_mem_statementText m ops (c := ';') (by decide) (by decide) (by decide) (e ▸ hc)
  rw [Source.stripComment, List.takeWhile_eq_self_iff.mpr hnone,
    (trimmed_statementText m ops).trim_eq]

/-- A statement falls into its mnemonic and its operands. -/
theorem splitLine_statementText :
    Source.splitLine (statementText m ops) = (m.name, ops.map Operand.text) := by
  have hname := m.plain_name.isBlank
  have hblank : Text.isBlank ' ' = true := by decide
  simp only [Source.splitLine, (trimmed_statementText m ops).trim_eq]
  cases ops with
  | nil =>
      -- the whole line is the mnemonic, and nothing stands behind it
      simp only [statementText, Text.firstWord_of_no_blank hname,
        Text.afterFirstWord_of_no_blank hname, m.plain_name.upper]
      rfl
  | cons o r =>
      have hplain : ∀ t ∈ (o :: r).map Operand.text, Text.Plain t := by
        intro t ht
        obtain ⟨o', -, rfl⟩ := List.mem_map.mp ht
        exact o'.plain_text
      simp only [statementText, Text.firstWord_append_cons hname hblank,
        Text.afterFirstWord_append_cons hname hblank, Text.trim_cons_of_isBlank hblank,
        (trimmed_operands (o :: r)).trim_eq, m.plain_name.upper]
      rw [if_neg (operands_ne_nil (o :: r) (List.cons_ne_nil o r)),
        Text.map_ofOperand_fields_join (by simp) hplain]

end Statement

/-! ## Instructions -/

namespace Statement

open Operand

variable {x y n k : Byte} {a : Word}

theorem ofRegister_text (make : Byte → Instruction) (hx : x.toNat < 16) :
    ofRegister make (reg x).text = .ok (make x) := by
  rw [ofRegister, register_text hx]
  rfl

theorem ofRegisters_text (make : Byte → Byte → Instruction) (hx : x.toNat < 16)
    (hy : y.toNat < 16) : ofRegisters make (reg x).text (reg y).text = .ok (make x y) := by
  rw [ofRegisters, register_text hx, register_text hy]
  rfl

theorem ofRegisterByte_text (make : Byte → Byte → Instruction) (hx : x.toNat < 16) :
    ofRegisterByte make (reg x).text (byte k).text = .ok (make x k) := by
  rw [ofRegisterByte, register_text hx, value_text]
  rfl

theorem ofAddress_text (make : Word → Instruction) (ha : a.toNat < 4096) :
    Statement.ofAddress make (addr a).text = .ok (make a) := by
  rw [Statement.ofAddress, address_text ha]
  rfl

theorem ofJumpPlus_text (ha : a.toNat < 4096) :
    ofJumpPlus (reg 0).text (addr a).text = .ok (.jumpPlus a) := by
  rw [ofJumpPlus, register_text (by decide), address_text ha]
  rfl

theorem ofDraw_text (hx : x.toNat < 16) (hy : y.toNat < 16) (hn : n.toNat < 16) :
    ofDraw (reg x).text (reg y).text (digit n).text = .ok (.draw x y n) := by
  rw [ofDraw, register_text hx, register_text hy, nibble_text hn]
  rfl

end Statement

namespace Instruction

open Statement in
/-- The shapes of its operands select the form of an instruction in range, and the
    readers of the form find its operands. -/
theorem read_operands {i : Instruction} (h : i.InRange) :
    Statement.read i.mnemonic (i.operands.map fun o => (o.shape, o.text)) = some (.ok i) := by
  -- three constructors cover several mnemonics or forms each, and split once more
  cases i with
  | skip t =>
      cases t <;> simp [InRange, operands, Test.operands, Operand.InRange] at h <;>
        simp [mnemonic, Test.mnemonic, operands, Test.operands, Operand.shape, Statement.read,
          ofRegister_text, ofRegisters_text, ofRegisterByte_text, h]
  | arith op x y =>
      simp [InRange, operands, Operand.InRange] at h
      cases op <;>
        simp [mnemonic, ArithOp.mnemonic, operands, Operand.shape, Statement.read, readLoad,
          ofRegisters_text, h]
  | shift d x =>
      simp [InRange, operands, Operand.InRange] at h
      cases d <;>
        simp [mnemonic, operands, Operand.shape, Statement.read, ofRegister_text, h]
  | jumpPlus a =>
      -- its register is written too, and must be read as `V0`
      have ha : a.toNat < 4096 := h (.addr a) (by simp [operands])
      exact congrArg some (ofJumpPlus_text ha)
  | _ =>
      simp [InRange, operands, Operand.InRange] at h
      simp [mnemonic, operands, Operand.shape, Statement.read, readLoad, ofRegister_text,
        ofRegisterByte_text, ofAddress_text, ofDraw_text, h]

/-- The statement of an instruction in range is read as the instruction. -/
theorem instruction_text {i : Instruction} (h : i.InRange) :
    Statement.instruction i.mnemonic.name (i.operands.map Operand.text) = .ok i := by
  -- the texts are tokens already, and their shapes are those of the operands
  have htokens : (i.operands.map Operand.text).map Token.ofOperand =
      i.operands.map Operand.text := by
    rw [List.map_map]
    exact List.map_congr_left fun o _ => o.plain_text.ofOperand
  have hshapes : (i.operands.map Operand.text).map (fun t => (Token.shape t, t)) =
      i.operands.map fun o => (o.shape, o.text) := by
    rw [List.map_map]
    exact List.map_congr_left fun o ho => by
      show (Token.shape o.text, o.text) = _
      rw [Operand.shape_text (h o ho)]
  simp only [Statement.instruction, Mnemonic.canonical_name, Mnemonic.ofName?_name, htokens,
    hshapes, read_operands h]

/-- A line that holds the text of an instruction in range holds its word. -/
theorem lineWord?_text {i : Instruction} (h : i.InRange) :
    Source.lineWord? i.text = .ok (some i.encode) := by
  rw [text, Source.lineWord?, stripComment_statementText, splitLine_statementText]
  simp only [if_neg (statementText_ne_nil i.mnemonic i.operands)]
  rw [Statement.encode_eq_map, instruction_text h]
  rfl

/-- The text of an instruction is a single line without question marks. -/
theorem not_mem_text (i : Instruction) : '\n' ∉ i.text ∧ '?' ∉ i.text :=
  ⟨not_mem_statementText _ _ (by decide) (by decide) (by decide),
    not_mem_statementText _ _ (by decide) (by decide) (by decide)⟩

end Instruction

end Chip8
