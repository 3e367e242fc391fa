import Chip8.Proofs.Refusals
import Chip8.Proofs.Trimming

/-! # Marks — hexadecimal numbers with and without `0X`

    A statement reads three things of a token: its shape, the register and the number that
    it spells.  So statements whose tokens are read alike are both refused or both have the
    same word (`Statement.toOption_instruction`).  Keywords are told before a mark is taken
    off and digits are counted after it, so that the mark changes the reading of no
    hexadecimal number but one: `BCD` is a keyword, and `0XBCD` is an address
    (`Statement.mark_optional`). -/

namespace Chip8

/-! ## Readings -/

/-- What a statement reads of a token. -/
structure Reading where
  shape : Shape
  registerIndex? : Option Nat
  number? : Option Nat

namespace Token

/-- The reading of a token. -/
def reading (t : Text) : Reading := ⟨shape t, registerIndex? t, number? t⟩

/-- What begins with a mark looks like a number. -/
theorem shape_mark (t : Text) : shape ('0' :: 'X' :: t) = numberShape ('0' :: 'X' :: t) := by
  have hword : keywords.lookup ('0' :: 'X' :: t) = none :=
    lookup_eq_none (p := fun u => u.head? = some '0') (by decide) rfl
  show otherShape ('0' :: 'X' :: t) = _
  rw [otherShape, hword, Option.getD_none]

section Digits

variable {t : Text} (h : ∀ c ∈ t, Text.isHexDigit c = true)
include h

/-- Digits alone have no mark to be taken off. -/
theorem unmarked_of_digits : unmarked t = t := by
  unfold unmarked
  split
  · exact absurd (h 'X' (by simp)) (by decide)
  · rfl

/-- Digits alone name no register. -/
theorem registerIndex?_of_digits : registerIndex? t = none := by
  unfold registerIndex?
  split
  · exact absurd (h 'V' (by simp)) (by decide)
  · rfl

/-- Digits other than `BCD` look like a number. -/
theorem shape_of_digits (hne : t ≠ "BCD".toList) : shape t = numberShape t := by
  have hword : keywords.lookup t = none := by
    -- every other keyword has a letter that is no digit
    refine lookup_eq_none (p := fun u => u.all Text.isHexDigit = true ∧ u ≠ "BCD".toList)
      (by decide) ⟨List.all_eq_true.mpr h, hne⟩
  unfold shape
  split
  · exact absurd (h 'V' (by simp)) (by decide)
  · rw [otherShape, hword, Option.getD_none]

/-- Digits other than `BCD` are read alike with and without a mark. -/
theorem reading_mark (hne : t ≠ "BCD".toList) : reading ('0' :: 'X' :: t) = reading t := by
  have hmark : unmarked ('0' :: 'X' :: t) = t := rfl
  have hshape : shape ('0' :: 'X' :: t) = shape t := by
    rw [shape_mark, shape_of_digits h hne, numberShape, numberShape, hmark, unmarked_of_digits h]
  have hnumber : number? ('0' :: 'X' :: t) = number? t := by
    rw [number?, number?, hmark, unmarked_of_digits h]
  have hindex : registerIndex? ('0' :: 'X' :: t) = registerIndex? t :=
    (registerIndex?_of_digits h).symm
  rw [reading, reading, hshape, hnumber, hindex]

end Digits

/-- A mark in front of a trimmed operand is a mark in front of its token. -/
theorem ofOperand_mark {t : Text} (h : Text.trim t ≠ []) :
    ofOperand ('0' :: 'X' :: Text.trim t) = '0' :: 'X' :: ofOperand t := by
  have hmark : Text.Trimmed ['0', 'X'] :=
    Text.trimmed_of_no_blank (List.forall_mem_cons.mpr ⟨rfl, List.forall_mem_singleton.mpr rfl⟩)
  have htrimmed : Text.Trimmed ('0' :: 'X' :: Text.trim t) :=
    hmark.append (Text.trimmed_trim t) (List.cons_ne_nil _ _) h []
  rw [ofOperand, htrimmed.trim_eq, Text.upper_cons, Text.upper_cons]
  rfl

/-! ## Readers -/

section Readers

variable {t u : Text} (h : reading t = reading u)
include h

theorem toOption_register : (register t).toOption = (register u).toOption := by
  have hindex : registerIndex? t = registerIndex? u := congrArg Reading.registerIndex? h
  rw [register, register, hindex]
  cases registerIndex? u with
  | none => rfl
  | some n => by_cases hn : n ≤ 0xF <;> simp [hn, Except.toOption]

theorem toOption_value : (value t).toOption = (value u).toOption := by
  have hnumber : number? t = number? u := congrArg Reading.number? h
  rw [value, value, hnumber]
  cases number? u with
  | none => rfl
  | some n => by_cases hn : n ≤ 0xFF <;> simp [hn, Except.toOption]

theorem toOption_nibble : (nibble t).toOption = (nibble u).toOption := by
  have hnumber : number? t = number? u := congrArg Reading.number? h
  rw [nibble, nibble, hnumber]
  cases number? u with
  | none => rfl
  | some n => by_cases hn : n ≤ 0xF <;> simp [hn, Except.toOption]

theorem toOption_address : (address t).toOption = (address u).toOption := by
  have hnumber : number? t = number? u := congrArg Reading.number? h
  rw [address, address, hnumber]
  cases number? u with
  | none => rfl
  | some n => by_cases hn : n ≤ 0xFFF <;> simp [hn, Except.toOption]

end Readers

end Token

/-! ## Outcomes -/

section Outcomes

variable {ε α β : Type} {r r' : Except ε α}

theorem toOption_bind {f f' : α → Except ε β} (h : r.toOption = r'.toOption)
    (hf : ∀ v, (f v).toOption = (f' v).toOption) :
    (r >>= f).toOption = (r' >>= f').toOption := by
  cases r with
  | error e =>
      cases r' with
      | error e' => rfl
      | ok v' => cases h
  | ok v =>
      cases r' with
      | error e' => cases h
      | ok v' =>
          cases h
          exact hf v

theorem toOption_map (g : α → β) : (r.map g).toOption = r.toOption.map g := by
  cases r <;> rfl

/-- Such outcomes are the same value, or both are errors. -/
theorem ok_or_errors (h : r.toOption = r'.toOption) :
    (∃ v, r = .ok v ∧ r' = .ok v) ∨ (∃ e, r = .error e) ∧ ∃ e, r' = .error e := by
  cases r with
  | error e =>
      cases r' with
      | error e' => exact Or.inr ⟨⟨e, rfl⟩, e', rfl⟩
      | ok v' => cases h
  | ok v =>
      cases r' with
      | error e' => cases h
      | ok v' =>
          cases h
          exact Or.inl ⟨v, rfl, rfl⟩

end Outcomes

namespace Statement

open Token

section Operands

variable {x x' y y' a a' k k' n n' : Text}

theorem toOption_ofRegister (make : Byte → Instruction) (hx : reading x = reading x') :
    (ofRegister make x).toOption = (ofRegister make x').toOption :=
  toOption_bind (toOption_register hx) fun _ => rfl

theorem toOption_ofRegisters (make : Byte → Byte → Instruction) (hx : reading x = reading x')
    (hy : reading y = reading y') :
    (ofRegisters make x y).toOption = (ofRegisters make x' y').toOption :=
  toOption_bind (toOption_register hx) fun _ =>
    toOption_bind (toOption_register hy) fun _ => rfl

theorem toOption_ofRegisterByte (make : Byte → Byte → Instruction)
    (hx : reading x = reading x') (hk : reading k = reading k') :
    (ofRegisterByte make x k).toOption = (ofRegisterByte make x' k').toOption :=
  toOption_bind (toOption_register hx) fun _ =>
    toOption_bind (toOption_value hk) fun _ => rfl

theorem toOption_ofAddress (make : Word → Instruction) (ha : reading a = reading a') :
    (Statement.ofAddress make a).toOption = (Statement.ofAddress make a').toOption :=
  toOption_bind (toOption_address ha) fun _ => rfl

theorem toOption_ofDraw (hx : reading x = reading x') (hy : reading y = reading y')
    (hn : reading n = reading n') : (ofDraw x y n).toOption = (ofDraw x' y' n').toOption :=
  toOption_bind (toOption_register hx) fun _ =>
    toOption_bind (toOption_register hy) fun _ =>
      toOption_bind (toOption_nibble hn) fun _ => rfl

/-- A stray jump names its operands, and is refused whatever they are. -/
theorem toOption_ofJumpPlus (hx : reading x = reading x') (ha : reading a = reading a') :
    (ofJumpPlus x a).toOption = (ofJumpPlus x' a').toOption := by
  refine toOption_bind (toOption_register hx) ?_
  intro r
  by_cases hzero : r = 0
  · subst hzero
    exact toOption_bind (toOption_address ha) fun _ => rfl
  · show (if r ≠ 0 then Except.error _ else _).toOption =
      (if r ≠ 0 then Except.error _ else _).toOption
    rw [if_pos hzero, if_pos hzero]
    rfl

end Operands

/-- A form has the same outcome on tokens that are read alike. -/
theorem Form.Makes.toOption_eq {f : Form} {ts us : List Text}
    {r r' : Except StatementError Instruction} (hr : f.Makes ts r) (hr' : f.Makes us r')
    (h : ts.map reading = us.map reading) : r.toOption = r'.toOption := by
  cases hr with
  | fixed i =>
      cases hr'
      rfl
  | address make _ =>
      cases hr' with
      | address _ _ =>
          obtain ⟨ha, -⟩ := List.cons.inj h
          exact toOption_ofAddress make ha
  | addressBehind make _ _ =>
      cases hr' with
      | addressBehind _ _ _ =>
          obtain ⟨-, ha⟩ := List.cons.inj h
          exact toOption_ofAddress make (List.cons.inj ha).1
  | jumpPlus _ _ =>
      cases hr' with
      | jumpPlus _ _ =>
          obtain ⟨hx, ha⟩ := List.cons.inj h
          exact toOption_ofJumpPlus hx (List.cons.inj ha).1
  | register make _ =>
      cases hr' with
      | register _ _ =>
          obtain ⟨hx, -⟩ := List.cons.inj h
          exact toOption_ofRegister make hx
  | registerBehind make _ _ =>
      cases hr' with
      | registerBehind _ _ _ =>
          obtain ⟨-, hx⟩ := List.cons.inj h
          exact toOption_ofRegister make (List.cons.inj hx).1
  | registerBefore make _ _ =>
      cases hr' with
      | registerBefore _ _ _ =>
          obtain ⟨hx, -⟩ := List.cons.inj h
          exact toOption_ofRegister make hx
  | registers make _ _ =>
      cases hr' with
      | registers _ _ _ =>
          obtain ⟨hx, hy⟩ := List.cons.inj h
          exact toOption_ofRegisters make hx (List.cons.inj hy).1
  | registerByte make _ _ =>
      cases hr' with
      | registerByte _ _ _ =>
          obtain ⟨hx, hk⟩ := List.cons.inj h
          exact toOption_ofRegisterByte make hx (List.cons.inj hk).1
  | draw _ _ _ =>
      cases hr' with
      | draw _ _ _ =>
          obtain ⟨hx, hrest⟩ := List.cons.inj h
          obtain ⟨hy, hn⟩ := List.cons.inj hrest
          exact toOption_ofDraw hx hy (List.cons.inj hn).1

/-! ## Statements -/

section Instruction

variable {mnemonic : Text} {operands : List Text}

/-- A statement that has a word has the shapes of a form of its mnemonic. -/
theorem form_of_encode {w : Word} (h : encode mnemonic operands = .ok w) :
    ∃ m, Mnemonic.ofName? (Mnemonic.canonical mnemonic) = some m ∧
      ∃ f ∈ forms m, f.shapes = (operands.map ofOperand).map shape := by
  cases hm : Mnemonic.ofName? (Mnemonic.canonical mnemonic) with
  | none => cases h.symm.trans (encode_eq_error_iff.mpr (.unknown hm))
  | some m =>
      refine ⟨m, rfl, ?_⟩
      by_cases hform : ∃ f ∈ forms m, f.shapes = (operands.map ofOperand).map shape
      · exact hform
      · have hnone : ∀ f ∈ forms m, f.shapes ≠ (operands.map ofOperand).map shape :=
          fun f hf hs => hform ⟨f, hf, hs⟩
        cases h.symm.trans (encode_eq_error_iff.mpr (.shapes hm hnone))

/-- Statements whose tokens are read alike are both refused or have the same instruction. -/
theorem toOption_instruction (mnemonic : Text) {operands operands' : List Text}
    (h : (operands.map ofOperand).map reading = (operands'.map ofOperand).map reading) :
    (instruction mnemonic operands).toOption = (instruction mnemonic operands').toOption := by
  have hshape : ∀ ts : List Text, ts.map shape = (ts.map reading).map Reading.shape := by
    intro ts
    rw [List.map_map]
    rfl
  have hshapes : (operands.map ofOperand).map shape = (operands'.map ofOperand).map shape := by
    rw [hshape, h, ← hshape]
  cases hm : Mnemonic.ofName? (Mnemonic.canonical mnemonic) with
  | none => rw [instruction_of_unknown hm, instruction_of_unknown hm]
  | some m =>
      by_cases hform : ∃ f ∈ forms m, f.shapes = (operands.map ofOperand).map shape
      · obtain ⟨f, hf, hs⟩ := hform
        exact (makes_instruction hm hf hs).toOption_eq
          (makes_instruction hm hf (hs.trans hshapes)) h
      · have hnone : ∀ f ∈ forms m, f.shapes ≠ (operands.map ofOperand).map shape :=
          fun f hf hs => hform ⟨f, hf, hs⟩
        rw [instruction_of_no_form hm hnone, instruction_of_no_form hm (hshapes ▸ hnone)]
        rfl

end Instruction

/-- No statement takes `BCD` where another takes an address. -/
theorem address_of_decimal {m : Mnemonic} {f g : Form} {before behind : List Shape}
    (hf : f ∈ forms m) (hg : g ∈ forms m) (hdecimal : f.shapes = before ++ .decimal :: behind) :
    g.shapes ≠ before ++ .address :: behind := by
  have hload : ∀ m ∈ Mnemonic.all, ∀ f ∈ forms m, Shape.decimal ∈ f.shapes →
      m = .ld ∧ f.shapes = [.decimal, .register] := by decide
  have haddress : ∀ g ∈ forms .ld, g.shapes ≠ [.address, .register] := by decide
  have hmem : Shape.decimal ∈ f.shapes := by
    rw [hdecimal]
    exact List.mem_append_right before List.mem_cons_self
  obtain ⟨rfl, hs⟩ := hload m (Mnemonic.mem_all m) f hf hmem
  rw [hs] at hdecimal
  rcases before with _ | ⟨s, _ | ⟨s', r⟩⟩
  · cases hdecimal
    exact haddress g hg
  · cases hdecimal
  · simp at hdecimal

/-- Of two statements with `BCD` and with an address at the same place, one is refused. -/
theorem decimal_or_address (mnemonic : Text) {before behind : List Text} {t u : Text}
    (ht : shape (ofOperand t) = .decimal) (hu : shape (ofOperand u) = .address) :
    (∃ e, encode mnemonic (before ++ t :: behind) = .error e) ∨
      ∃ e, encode mnemonic (before ++ u :: behind) = .error e := by
  cases hdecimal : encode mnemonic (before ++ t :: behind) with
  | error e => exact Or.inl ⟨e, rfl⟩
  | ok w =>
      cases haddress : encode mnemonic (before ++ u :: behind) with
      | error e => exact Or.inr ⟨e, rfl⟩
      | ok w' =>
          obtain ⟨m, hm, f, hf, hs⟩ := form_of_encode hdecimal
          obtain ⟨m', hm', g, hg, hs'⟩ := form_of_encode haddress
          obtain rfl : m = m' := Option.some.inj (hm.symm.trans hm')
          simp only [List.map_append, List.map_cons, ht] at hs
          simp only [List.map_append, List.map_cons, hu] at hs'
          exact absurd hs' (address_of_decimal hf hg hs)

/-- **MARKS ARE OPTIONAL**: where the token of an operand is made of hexadecimal digits and
    is not `BCD`, a mark in front of it leaves the word of the statement as it is, or both
    statements are refused.  `BCD` is a keyword, and with a mark it is an address: at most
    one of the two statements has a word. -/
theorem mark_optional (mnemonic : Text) (before behind : List Text) {t u : Text}
    (hdigits : ∀ c ∈ ofOperand t, Text.isHexDigit c = true)
    (hmark : ofOperand u = '0' :: 'X' :: ofOperand t) :
    let plain := encode mnemonic (before ++ t :: behind)
    let marked := encode mnemonic (before ++ u :: behind)
    (ofOperand t ≠ "BCD".toList →
      (∃ w, plain = .ok w ∧ marked = .ok w) ∨ (∃ e, plain = .error e) ∧ ∃ e, marked = .error e) ∧
    (ofOperand t = "BCD".toList → (∃ e, plain = .error e) ∨ ∃ e, marked = .error e) := by
  intro plain marked
  constructor
  · intro hne
    refine ok_or_errors ?_
    have hread : reading (ofOperand t) = reading (ofOperand u) := by
      rw [hmark, reading_mark hdigits hne]
    have hrow : ((before ++ t :: behind).map ofOperand).map reading =
        ((before ++ u :: behind).map ofOperand).map reading := by
      simp only [List.map_append, List.map_cons, hread]
    have hinstruction := toOption_instruction mnemonic hrow
    show (encode mnemonic (before ++ t :: behind)).toOption =
      (encode mnemonic (before ++ u :: behind)).toOption
    rw [encode_eq_map, encode_eq_map, toOption_map, toOption_map, hinstruction]
  · intro hword
    have hdecimal : shape (ofOperand t) = .decimal := by
      rw [hword]
      decide
    have haddress : shape (ofOperand u) = .address := by
      rw [hmark, hword]
      decide
    exact decimal_or_address mnemonic hdecimal haddress

/-- A byte in lower case with and without a mark. -/
theorem mark_optional_byte :
    let operands := fun t => ["v1".toList, t]
    (∀ c ∈ ofOperand " fe".toList, Text.isHexDigit c = true) ∧
      ofOperand "0Xfe".toList = '0' :: 'X' :: ofOperand " fe".toList ∧
      encode "ld".toList (operands " fe".toList) = .ok 0x61FE ∧
      encode "ld".toList (operands "0Xfe".toList) = .ok 0x61FE := by
  intro operands
  have hdigits : ∀ c ∈ ofOperand " fe".toList, Text.isHexDigit c = true :=
    List.all_eq_true.mp (by decide)
  have hmark : ofOperand "0Xfe".toList = '0' :: 'X' :: ofOperand " fe".toList :=
    ofOperand_mark (t := " fe".toList) (by decide)
  have hplain : encode "ld".toList (operands " fe".toList) = .ok 0x61FE := by decide
  refine ⟨hdigits, hmark, hplain, ?_⟩
  rcases (mark_optional "ld".toList ["v1".toList] [] hdigits hmark).1 (by decide) with
    ⟨w, hw, hw'⟩ | ⟨⟨e, he⟩, -⟩
  · exact hw'.trans (hw.symm.trans hplain)
  · cases he.symm.trans hplain

/-- A mark counts on `BCD`: without it the keyword is no operand of `SYS`. -/
theorem mark_of_keyword :
    ¬ ∀ (mnemonic : Text) (before behind : List Text) (t u : Text), ofOperand t ≠ [] →
      (∀ c ∈ ofOperand t, Text.isHexDigit c = true) →
      ofOperand u = '0' :: 'X' :: ofOperand t →
      (∃ w, encode mnemonic (before ++ t :: behind) = .ok w ∧
        encode mnemonic (before ++ u :: behind) = .ok w) ∨
      (∃ e, encode mnemonic (before ++ t :: behind) = .error e) ∧
        ∃ e, encode mnemonic (before ++ u :: behind) = .error e := by
  intro h
  have hplain : encode "SYS".toList ["BCD".toList] =
      .error (.invalidOperands "SYS".toList ["BCD".toList]) := rfl
  have hmarked : encode "SYS".toList ["0XBCD".toList] = .ok 0x0BCD := rfl
  have hdigits : ∀ c ∈ ofOperand "BCD".toList, Text.isHexDigit c = true :=
    List.all_eq_true.mp (by decide)
  rcases h "SYS".toList [] [] "BCD".toList "0XBCD".toList (by decide) hdigits (by decide) with
    ⟨w, hw, -⟩ | ⟨-, e, he⟩
  · cases hw.symm.trans hplain
  · cases he.symm.trans hmarked

end Statement

end Chip8
