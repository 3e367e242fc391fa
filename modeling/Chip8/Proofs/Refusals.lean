import Chip8.Proofs.Encoders
import Mathlib.Algebra.Group.Nat.Defs

/-! # Refusals — which statements are refused, and for what

    A statement is refused for one of three causes, and the first that applies is its error.
    Its mnemonic may be none; its operands may have the shapes of no form of the mnemonic,
    or stand behind a jump that takes no register but `V0`; and an operand may say nothing
    that its place can take, in which case the leftmost such operand is named.  Otherwise
    the statement has a word: `Statement.encode_verdict`. -/

namespace Chip8

/-- So many digits reach so far. -/
theorem Text.hexValue_lt {t : Text} (h : ∀ c ∈ t, isHexDigit c = true) :
    hexValue t < 16 ^ t.length := by
  -- with digits in front that make `v`, the number is below `v + 1` shifted by the places
  have hfrom : ∀ v, t.foldl (fun v c => 16 * v + digitValue c) v < (v + 1) * 16 ^ t.length := by
    induction t with
    | nil =>
      intro v
      simp
    | cons c r ih =>
      intro v
      obtain ⟨hc, hr⟩ := List.forall_mem_cons.mp h
      have hdigit := digitValue_lt hc
      calc (c :: r).foldl (fun v c => 16 * v + digitValue c) v
          < (16 * v + digitValue c + 1) * 16 ^ r.length := ih hr _
        _ ≤ (v + 1) * 16 * 16 ^ r.length := Nat.mul_le_mul_right _ (by omega)
        _ = (v + 1) * 16 ^ (c :: r).length := by
          rw [Nat.mul_assoc, List.length_cons, Nat.pow_succ']
  simpa [hexValue] using hfrom 0

namespace Statement

open Token

/-! ## Refused operands -/

/-- Why a place does not take a token of its shape, if it does not.  Every address has three
    digits, and a keyword is itself. -/
def Place.refusal? : Place → Text → Option StatementError
  | .register, t =>
    if (registerIndex? t).any (· ≤ 0xF) then none else some (.invalidRegister t)
  | .byte, t     => if (number? t).any (· ≤ 0xFF) then none else some (.invalidValue t)
  | .nibble, t   =>
    match number? t with
    | some n => if n ≤ 0xF then none else some (.invalidNibble t)
    | none   => some (.invalidValue t)
  | .address, _ | .keyword _, _ => none

/-- The refusal of the leftmost token that its place does not take. -/
def firstRefusal? (row : List (Place × Text)) : Option StatementError :=
  row.findSome? fun q => q.1.refusal? q.2

/-- The error of an outcome. -/
def errorOf {α : Type} : Except StatementError α → Option StatementError
  | .error e => some e
  | .ok _    => none

section Errors

variable {α β : Type} {r : Except StatementError α}

theorem errorOf_eq_some_iff {e : StatementError} : errorOf r = some e ↔ r = .error e := by
  cases r <;> simp [errorOf]

theorem errorOf_eq_none_iff : errorOf r = none ↔ ∃ v, r = .ok v := by
  cases r <;> simp [errorOf]

theorem errorOf_map (g : α → β) : errorOf (r.map g) = errorOf r := by
  cases r <;> rfl

/-- What is read at the first place, and then at the others, is refused as the places
    refuse it. -/
theorem errorOf_bind {rest : α → Except StatementError β} {p : Place} {t : Text}
    {row : List (Place × Text)} (hread : errorOf r = p.refusal? t)
    (hrest : ∀ v, r = .ok v → errorOf (rest v) = firstRefusal? row) :
    errorOf (r >>= rest) = firstRefusal? ((p, t) :: row) := by
  rw [firstRefusal?, List.findSome?_cons]
  cases r with
  | error e =>
      rw [← hread]
      rfl
  | ok v =>
      rw [← hread]
      exact hrest v rfl

end Errors

section Tokens

variable {t : Text}

theorem errorOf_register (t : Text) : errorOf (register t) = Place.register.refusal? t := by
  rw [register, Place.refusal?]
  cases registerIndex? t with
  | none => rfl
  | some n => by_cases hn : n ≤ 0xF <;> simp [hn, errorOf]

theorem errorOf_value (t : Text) : errorOf (value t) = Place.byte.refusal? t := by
  rw [value, Place.refusal?]
  cases number? t with
  | none => rfl
  | some n => by_cases hn : n ≤ 0xFF <;> simp [hn, errorOf]

theorem errorOf_nibble (t : Text) : errorOf (nibble t) = Place.nibble.refusal? t := by
  rw [nibble, Place.refusal?]
  cases number? t with
  | none => rfl
  | some n => by_cases hn : n ≤ 0xF <;> simp [hn, errorOf]

/-- Three digits always make an address. -/
theorem errorOf_address (hs : shape t = .address) : errorOf (address t) = none := by
  obtain ⟨hlength, hdigits⟩ := digits_of_shape hs
  have hne : unmarked t ≠ [] := by
    intro hnil
    rw [hnil] at hlength
    cases hlength
  have hnumber : number? t = some (Text.hexValue (unmarked t)) :=
    if_pos ⟨hne, by omega, List.all_eq_true.mpr hdigits⟩
  have hbound : Text.hexValue (unmarked t) ≤ 0xFFF := by
    have hlt := Text.hexValue_lt hdigits
    rw [hlength] at hlt
    omega
  rw [address, hnumber]
  exact congrArg errorOf (if_pos hbound)

end Tokens

/-! ## Forms -/

/-- A register other than `V0` in front of the address of a jump. -/
def StrayJump (ts : List Text) : Prop :=
  ∃ x a r, ts = [x, a] ∧ shape x = .register ∧ shape a = .address ∧
    register x = .ok r ∧ r ≠ 0

section Outcomes

variable {x y a k n : Text}

theorem errorOf_ofRegister (make : Byte → Instruction) (x : Text) :
    errorOf (ofRegister make x) = firstRefusal? [(.register, x)] :=
  errorOf_bind (errorOf_register x) fun _ _ => rfl

theorem errorOf_ofRegisters (make : Byte → Byte → Instruction) (x y : Text) :
    errorOf (ofRegisters make x y) = firstRefusal? [(.register, x), (.register, y)] :=
  errorOf_bind (errorOf_register x) fun _ _ => errorOf_bind (errorOf_register y) fun _ _ => rfl

theorem errorOf_ofRegisterByte (make : Byte → Byte → Instruction) (x k : Text) :
    errorOf (ofRegisterByte make x k) = firstRefusal? [(.register, x), (.byte, k)] :=
  errorOf_bind (errorOf_register x) fun _ _ => errorOf_bind (errorOf_value k) fun _ _ => rfl

theorem errorOf_ofAddress (make : Word → Instruction) (ha : shape a = .address) :
    errorOf (Statement.ofAddress make a) = firstRefusal? [(.address, a)] :=
  errorOf_bind (errorOf_address ha) fun _ _ => rfl

theorem errorOf_ofDraw (x y n : Text) :
    errorOf (ofDraw x y n) = firstRefusal? [(.register, x), (.register, y), (.nibble, n)] :=
  errorOf_bind (errorOf_register x) fun _ _ =>
    errorOf_bind (errorOf_register y) fun _ _ => errorOf_bind (errorOf_nibble n) fun _ _ => rfl

/-- A jump that is no stray one is refused for its operands only. -/
theorem errorOf_ofJumpPlus (hx : shape x = .register) (ha : shape a = .address)
    (hjump : ¬ StrayJump [x, a]) :
    errorOf (ofJumpPlus x a) = firstRefusal? [(.register, x), (.address, a)] := by
  refine errorOf_bind (errorOf_register x) ?_
  intro r hr
  by_cases hzero : r = 0
  · subst hzero
    exact errorOf_bind (errorOf_address ha) fun _ _ => rfl
  · exact absurd ⟨x, a, r, rfl, hx, ha, hr, hzero⟩ hjump

/-- A stray jump is refused with the mnemonic's own name. -/
theorem ofJumpPlus_stray {r : Byte} (hr : register x = .ok r) (hne : r ≠ 0) :
    ofJumpPlus x a = .error (.invalidOperands (Mnemonic.name .jp) [x, a]) := by
  rw [ofJumpPlus, hr]
  exact if_pos hne

end Outcomes

/-- Tokens are refused by a form as its places refuse them. -/
theorem Form.Makes.errorOf_eq {f : Form} {ts : List Text} {r : Except StatementError Instruction}
    (h : f.Makes ts r) (hjump : f = .jumpPlus → ¬ StrayJump ts) :
    errorOf r = firstRefusal? (f.places.zip ts) := by
  cases h with
  | fixed i => rfl
  | address make ha => exact errorOf_ofAddress make ha
  | addressBehind make t ha => exact errorOf_ofAddress make ha
  | jumpPlus hx ha => exact errorOf_ofJumpPlus hx ha (hjump rfl)
  | register make x => exact errorOf_ofRegister make x
  | registerBehind make t x => exact errorOf_ofRegister make x
  | registerBefore make x t => exact errorOf_ofRegister make x
  | registers make x y => exact errorOf_ofRegisters make x y
  | registerByte make x k => exact errorOf_ofRegisterByte make x k
  | draw x y n => exact errorOf_ofDraw x y n

/-! ## Statements -/

/-- The error is about a single token. -/
def NamesToken : StatementError → Prop
  | .invalidRegister _ | .invalidValue _ | .invalidNibble _ => True
  | _ => False

/-- Places refuse registers, values and nibbles. -/
theorem namesToken_of_firstRefusal? {row : List (Place × Text)} {e : StatementError}
    (h : firstRefusal? row = some e) : NamesToken e := by
  obtain ⟨-, ⟨p, t⟩, -, -, hrefusal, -⟩ := List.findSome?_eq_some_iff.mp h
  cases p with
  | register =>
      rw [Place.refusal?] at hrefusal
      split at hrefusal <;> cases hrefusal
      trivial
  | byte =>
      rw [Place.refusal?] at hrefusal
      split at hrefusal <;> cases hrefusal
      trivial
  | nibble =>
      rw [Place.refusal?] at hrefusal
      split at hrefusal
      · split at hrefusal <;> cases hrefusal
        trivial
      · cases hrefusal
        trivial
  | address => cases hrefusal
  | keyword word => cases hrefusal

theorem StrayJump.shapes_eq {ts : List Text} (h : StrayJump ts) :
    Form.jumpPlus.shapes = ts.map shape := by
  obtain ⟨x, a, -, rfl, hx, ha, -⟩ := h
  rw [List.map_cons, List.map_singleton, hx, ha]
  rfl

/-- Why a statement is refused. -/
inductive Refused (mnemonic : Text) (operands : List Text) : StatementError → Prop where
  | unknown :
      Mnemonic.ofName? (Mnemonic.canonical mnemonic) = none →
      Refused mnemonic operands (.unknownInstruction (Text.upper (Text.trim mnemonic)))
  | shapes {m : Mnemonic} :
      Mnemonic.ofName? (Mnemonic.canonical mnemonic) = some m →
      (∀ f ∈ forms m, f.shapes ≠ (operands.map ofOperand).map shape) →
      Refused mnemonic operands
        (.invalidOperands (Text.upper (Text.trim mnemonic)) (operands.map ofOperand))
  | stray :
      Mnemonic.ofName? (Mnemonic.canonical mnemonic) = some .jp →
      StrayJump (operands.map ofOperand) →
      Refused mnemonic operands (.invalidOperands (Mnemonic.name .jp) (operands.map ofOperand))
  | operand {m : Mnemonic} {f : Form} {e : StatementError} :
      Mnemonic.ofName? (Mnemonic.canonical mnemonic) = some m → f ∈ forms m →
      f.shapes = (operands.map ofOperand).map shape →
      ¬ (m = .jp ∧ StrayJump (operands.map ofOperand)) →
      firstRefusal? (f.places.zip (operands.map ofOperand)) = some e →
      Refused mnemonic operands e

section Instruction

variable {mnemonic : Text} {operands : List Text} {m : Mnemonic}

theorem errorOf_encode (mnemonic : Text) (operands : List Text) :
    errorOf (encode mnemonic operands) = errorOf (instruction mnemonic operands) := by
  rw [encode_eq_map, errorOf_map]

/-- A statement with the shapes of a form is refused as the places of the form refuse its
    operands, unless it is a stray jump. -/
theorem errorOf_encode_form (hm : Mnemonic.ofName? (Mnemonic.canonical mnemonic) = some m)
    {f : Form} (hf : f ∈ forms m) (hs : f.shapes = (operands.map ofOperand).map shape)
    (hjump : ¬ (m = .jp ∧ StrayJump (operands.map ofOperand))) :
    errorOf (encode mnemonic operands) = firstRefusal? (f.places.zip (operands.map ofOperand)) := by
  rw [errorOf_encode]
  refine (makes_instruction hm hf hs).errorOf_eq ?_
  rintro rfl hstray
  exact hjump ⟨eq_jp_of_jumpPlus hf, hstray⟩

theorem instruction_stray (hm : Mnemonic.ofName? (Mnemonic.canonical mnemonic) = some .jp)
    (h : StrayJump (operands.map ofOperand)) :
    instruction mnemonic operands =
      .error (.invalidOperands (Mnemonic.name .jp) (operands.map ofOperand)) := by
  have hrun := instruction_of_form (f := .jumpPlus) hm (by simp [forms]) h.shapes_eq
  obtain ⟨x, a, r, hts, -, -, hr, hne⟩ := h
  rw [hts] at hrun ⊢
  exact (Option.some.inj hrun).symm.trans (ofJumpPlus_stray hr hne)

/-- The errors of statements are those with a cause. -/
theorem encode_eq_error_iff {e : StatementError} :
    encode mnemonic operands = .error e ↔ Refused mnemonic operands e := by
  rw [← errorOf_eq_some_iff]
  constructor
  · intro h
    cases hm : Mnemonic.ofName? (Mnemonic.canonical mnemonic) with
    | none =>
        rw [errorOf_encode, instruction_of_unknown hm] at h
        cases h
        exact .unknown hm
    | some m =>
        by_cases hform : ∃ f ∈ forms m, f.shapes = (operands.map ofOperand).map shape
        · obtain ⟨f, hf, hs⟩ := hform
          by_cases hjump : m = .jp ∧ StrayJump (operands.map ofOperand)
          · obtain ⟨rfl, hstray⟩ := hjump
            rw [errorOf_encode, instruction_stray hm hstray] at h
            cases h
            exact .stray hm hstray
          · rw [errorOf_encode_form hm hf hs hjump] at h
            exact .operand hm hf hs hjump h
        · have hnone : ∀ f ∈ forms m, f.shapes ≠ (operands.map ofOperand).map shape :=
            fun f hf hs => hform ⟨f, hf, hs⟩
          rw [errorOf_encode, instruction_of_no_form hm hnone] at h
          cases h
          exact .shapes hm hnone
  · intro h
    cases h with
    | unknown hm =>
        rw [errorOf_encode, instruction_of_unknown hm]
        rfl
    | shapes hm hnone =>
        rw [errorOf_encode, instruction_of_no_form hm hnone]
        rfl
    | stray hm hstray =>
        rw [errorOf_encode, instruction_stray hm hstray]
        rfl
    | operand hm hf hs hjump hrefusal => rw [errorOf_encode_form hm hf hs hjump, hrefusal]

/-- The unknown instructions are the statements without a mnemonic. -/
theorem encode_eq_unknown_iff :
    (∃ n, encode mnemonic operands = .error (.unknownInstruction n)) ↔
      Mnemonic.ofName? (Mnemonic.canonical mnemonic) = none := by
  constructor
  · rintro ⟨n, hn⟩
    cases encode_eq_error_iff.mp hn with
    | unknown hm => exact hm
    | operand _ _ _ _ hrefusal => exact (namesToken_of_firstRefusal? hrefusal).elim
  · intro hm
    exact ⟨_, encode_eq_error_iff.mpr (.unknown hm)⟩

theorem encode_ne_invalidAddress (t : Text) :
    encode mnemonic operands ≠ .error (.invalidAddress t) := by
  intro ht
  cases encode_eq_error_iff.mp ht with
  | operand _ _ _ _ hrefusal => exact (namesToken_of_firstRefusal? hrefusal).elim

/-- The operands of a mnemonic are refused as a whole for their shapes, or behind a stray
    jump. -/
theorem encode_eq_invalidOperands_iff
    (hm : Mnemonic.ofName? (Mnemonic.canonical mnemonic) = some m) :
    (∃ n ts, encode mnemonic operands = .error (.invalidOperands n ts)) ↔
      (∀ f ∈ forms m, f.shapes ≠ (operands.map ofOperand).map shape) ∨
        (m = .jp ∧ StrayJump (operands.map ofOperand)) := by
  constructor
  · rintro ⟨n, ts, h⟩
    cases encode_eq_error_iff.mp h with
    | shapes hm' hnone =>
        obtain rfl := Option.some.inj (hm.symm.trans hm')
        exact Or.inl hnone
    | stray hm' hstray => exact Or.inr ⟨Option.some.inj (hm.symm.trans hm'), hstray⟩
    | operand _ _ _ _ hrefusal => exact (namesToken_of_firstRefusal? hrefusal).elim
  · rintro (hnone | ⟨rfl, hstray⟩)
    · exact ⟨_, _, encode_eq_error_iff.mpr (.shapes hm hnone)⟩
    · exact ⟨_, _, encode_eq_error_iff.mpr (.stray hm hstray)⟩

end Instruction

/-- **VERDICTS**: a statement whose name is none of the mnemonics is an unknown instruction,
    and no other is.  Among the others, those have invalid operands whose operands have the
    shapes of no row of the table, and the stray jumps.  Every other statement has the
    shapes of a row whose form finds all its operands in the list; its error is the refusal
    of the leftmost operand that its place does not take, and if there is none, it has a
    word.  No address is ever refused. -/
theorem encode_verdict (mnemonic : Text) (operands : List Text) :
    let tokens := operands.map ofOperand
    let answer := encode mnemonic operands
    ((∃ n, answer = .error (.unknownInstruction n)) ↔
      ∀ m : Mnemonic, m.name ≠ Mnemonic.canonical mnemonic) ∧
    (∀ t, answer ≠ .error (.invalidAddress t)) ∧
    (∀ m : Mnemonic, m.name = Mnemonic.canonical mnemonic →
      ((∃ n ts, answer = .error (.invalidOperands n ts)) ↔
        (∀ f ∈ forms m, f.shapes ≠ tokens.map shape) ∨ (m = .jp ∧ StrayJump tokens)) ∧
      (∀ f ∈ forms m, f.shapes = tokens.map shape → ¬ (m = .jp ∧ StrayJump tokens) →
        (∃ r, f.run tokens = some r ∧ answer = r.map Instruction.encode) ∧
        (∀ e, answer = .error e ↔ ∃ before p t behind,
          f.places.zip tokens = before ++ (p, t) :: behind ∧ p.refusal? t = some e ∧
            ∀ q ∈ before, q.1.refusal? q.2 = none) ∧
        ((∃ w, answer = .ok w) ↔ ∀ q ∈ f.places.zip tokens, q.1.refusal? q.2 = none))) := by
  intro tokens answer
  refine ⟨encode_eq_unknown_iff.trans Mnemonic.ofName?_eq_none_iff, encode_ne_invalidAddress, ?_⟩
  intro m hname
  have hm := Mnemonic.ofName?_eq_some_iff.mpr hname
  refine ⟨encode_eq_invalidOperands_iff hm, ?_⟩
  intro f hf hs hjump
  have herror := errorOf_encode_form hm hf hs hjump
  refine ⟨⟨_, instruction_of_form hm hf hs, encode_eq_map mnemonic operands⟩, ?_, ?_⟩
  · intro e
    rw [← errorOf_eq_some_iff, herror, firstRefusal?, List.findSome?_eq_some_iff]
    constructor
    · rintro ⟨before, ⟨p, t⟩, behind, hzip, hrefusal, hbefore⟩
      exact ⟨before, p, t, behind, hzip, hrefusal, hbefore⟩
    · rintro ⟨before, p, t, behind, hzip, hrefusal, hbefore⟩
      exact ⟨before, (p, t), behind, hzip, hrefusal, hbefore⟩
  · rw [← errorOf_eq_none_iff, herror, firstRefusal?, List.findSome?_eq_none_iff]

/-- A drawing with a register that does not exist in front of a row count that is too high:
    the register is named. -/
theorem encode_verdict_leftmost :
    let operands := ["v1".toList, "v10".toList, "0x10".toList]
    (Mnemonic.drw.name = Mnemonic.canonical " draw".toList ∧
      Form.shapes .draw = (operands.map ofOperand).map shape ∧
      ¬ (Mnemonic.drw = .jp ∧ StrayJump (operands.map ofOperand))) ∧
    encode " draw".toList operands = .error (.invalidRegister "V10".toList) := by
  intro operands
  have hname : Mnemonic.drw.name = Mnemonic.canonical " draw".toList := by decide
  have hs : Form.shapes .draw = (operands.map ofOperand).map shape := by decide
  have hjump : ¬ (Mnemonic.drw = .jp ∧ StrayJump (operands.map ofOperand)) := by
    rintro ⟨h, -⟩
    cases h
  have hrow := ((encode_verdict " draw".toList operands).2.2 .drw hname).2 .draw
    (by simp [forms]) hs hjump
  refine ⟨⟨hname, hs, hjump⟩, (hrow.2.1 _).mpr ?_⟩
  exact ⟨[(.register, "V1".toList)], .register, "V10".toList, [(.nibble, "0X10".toList)],
    by decide, by decide, by decide⟩

/-- **NAMES IN ERRORS**: an unknown instruction and invalid operands are named as they were
    written, trimmed and in upper case, but for a stray jump, which is named `JP` whatever
    name it was written with. -/
theorem error_names (mnemonic : Text) (operands : List Text) :
    let written := Text.upper (Text.trim mnemonic)
    let tokens := operands.map ofOperand
    let stray := Mnemonic.canonical mnemonic = Mnemonic.name .jp ∧ StrayJump tokens
    (∀ n, encode mnemonic operands = .error (.unknownInstruction n) → n = written) ∧
    (∀ n ts, encode mnemonic operands = .error (.invalidOperands n ts) →
      ts = tokens ∧ (¬ stray ∧ n = written ∨ stray ∧ n = Mnemonic.name .jp)) := by
  intro written tokens stray
  constructor
  · intro n hn
    cases encode_eq_error_iff.mp hn with
    | unknown _ => rfl
    | operand _ _ _ _ hrefusal => exact (namesToken_of_firstRefusal? hrefusal).elim
  · intro n ts h
    cases encode_eq_error_iff.mp h with
    | @shapes m hm hnone =>
        refine ⟨rfl, Or.inl ⟨?_, rfl⟩⟩
        -- a stray jump would have the shapes of a form
        rintro ⟨hjp, hstray⟩
        obtain rfl : m = .jp := by
          rw [hjp, Mnemonic.ofName?_name] at hm
          exact (Option.some.inj hm).symm
        exact hnone .jumpPlus (by simp [forms]) hstray.shapes_eq
    | stray hm hstray =>
        exact ⟨rfl, Or.inr ⟨⟨(Mnemonic.name_of_ofName? hm).symm, hstray⟩, rfl⟩⟩
    | operand _ _ _ _ hrefusal => exact (namesToken_of_firstRefusal? hrefusal).elim

/-- A name that is none, and two longer names, of which the first is kept and the second,
    of a stray jump, is not. -/
theorem error_names_longer :
    let pair := ["dt".toList, " st".toList]
    let jump := ["v1".toList, "333".toList]
    (encode " mov".toList [] = .error (.unknownInstruction "MOV".toList) ∧
      "MOV".toList = Text.upper (Text.trim " mov".toList)) ∧
    (encode "load".toList pair =
        .error (.invalidOperands "LOAD".toList ["DT".toList, "ST".toList]) ∧
      "LOAD".toList = Text.upper (Text.trim "load".toList)) ∧
    encode "jump".toList jump =
        .error (.invalidOperands "JP".toList ["V1".toList, "333".toList]) ∧
      StrayJump (jump.map ofOperand) := by
  intro pair jump
  have hmov : encode " mov".toList [] = .error (.unknownInstruction "MOV".toList) := rfl
  have hload : encode "load".toList pair =
      .error (.invalidOperands "LOAD".toList ["DT".toList, "ST".toList]) := rfl
  have hjump : encode "jump".toList jump =
      .error (.invalidOperands "JP".toList ["V1".toList, "333".toList]) := rfl
  refine ⟨⟨hmov, (error_names " mov".toList []).1 _ hmov⟩, ⟨hload, ?_⟩, hjump, ?_⟩
  · obtain ⟨-, ⟨-, hname⟩ | ⟨⟨hjp, -⟩, -⟩⟩ := (error_names "load".toList pair).2 _ _ hload
    · exact hname
    · exact absurd hjp (by decide)
  · obtain ⟨-, ⟨-, hname⟩ | ⟨⟨-, hstray⟩, -⟩⟩ := (error_names "jump".toList jump).2 _ _ hjump
    · exact absurd hname (by decide)
    · exact hstray

/-- A jump by a longer name is not named as it was written. -/
theorem alias_not_named :
    ¬ ∀ (mnemonic : Text) (operands : List Text) (n : Text) (ts : List Text),
      encode mnemonic operands = .error (.invalidOperands n ts) →
        n = Text.upper (Text.trim mnemonic) := by
  intro h
  have hjump := h "JUMP".toList ["V1".toList, "333".toList] (Mnemonic.name .jp) _ rfl
  exact absurd hjump (by decide)

end Statement

end Chip8
