import Chip8.Proofs.Spelling
import Mathlib.Data.List.Forall2

/-! # Meaning — a statement and its instruction say the same

    An operand says the same in many spellings: a register is its index, a number its
    value, a keyword itself.  The readers find what a token says, and every form of a
    statement puts each operand where its instruction writes it.  So the instruction
    that a statement assembles to is written with the mnemonic of the statement and
    with operands that say what the statement's say, in the same order:
    `Statement.encode_agrees`. -/

namespace Chip8

/-- What an operand says, in whatever spelling. -/
inductive Meaning where
  | register (index : Nat)
  | number (value : Nat)
  | keyword (which : Shape)
  deriving DecidableEq, Repr

/-! ## Tokens -/

namespace Token

/-- What a token says, if it says anything.  Keywords come first, for `BCD` could be a
    number. -/
def meaning? (t : Text) : Option Meaning :=
  match keywords.lookup t with
  | some s => some (.keyword s)
  | none =>
    match registerIndex? t with
    | some n => some (.register n)
    | none   => (number? t).map .number

/-- Two tokens say the same. -/
def Agree (t u : Text) : Prop := ∃ m, meaning? t = some m ∧ meaning? u = some m

/-- A token with the shape of a keyword is one. -/
theorem lookup_of_shape {t : Text} (h : shape t ∉ [.register, .byte, .address]) :
    keywords.lookup t = some (shape t) := by
  have hother : shape t = otherShape t := by
    rcases shape_eq_or t with hregister | hother
    · rw [hregister] at h
      exact absurd List.mem_cons_self h
    · exact hother
  rw [hother, otherShape] at h ⊢
  cases hl : keywords.lookup t with
  | some s => rfl
  | none =>
      rw [hl, Option.getD_none, numberShape] at h
      split at h <;> exact absurd (by decide) h

theorem meaning?_of_registerIndex? {t : Text} {n : Nat} (h : registerIndex? t = some n) :
    meaning? t = some (.register n) := by
  have hl : keywords.lookup t = none :=
    lookup_eq_none (p := fun t => (registerIndex? t).isSome) (by decide) (h ▸ rfl)
  rw [meaning?, hl, h]

/-- The letter `V` begins no number. -/
theorem registerIndex?_of_number? {t : Text} {n : Nat} (h : number? t = some n) :
    registerIndex? t = none := by
  unfold registerIndex?
  split
  · rename_i r
    have hnone : number? ('V' :: r) = none := if_neg fun hall => by
      exact absurd (List.all_eq_true.mp hall.2.2 'V' (List.mem_cons_self ..)) (by decide)
    rw [hnone] at h
    cases h
  · rfl

theorem meaning?_of_number? {t : Text} {n : Nat} (hs : shape t ∈ [.byte, .address])
    (h : number? t = some n) : meaning? t = some (.number n) := by
  have hl : keywords.lookup t = none :=
    lookup_eq_none (p := fun t => shape t ∈ [.byte, .address]) (by decide) hs
  rw [meaning?, hl, registerIndex?_of_number? h, h]
  rfl

theorem number?_of_meaning? {t : Text} {n : Nat} (h : meaning? t = some (.number n)) :
    number? t = some n := by
  unfold meaning? at h
  split at h
  · cases h
  · split at h
    · cases h
    · obtain ⟨v, hv, hn⟩ := Option.map_eq_some_iff.mp h
      cases hn
      exact hv

end Token

/-! ## Operands -/

/-- What an operand of an instruction says. -/
def Operand.meaning : Operand → Meaning
  | .reg x             => .register x.toNat
  | .byte k | .digit k => .number k.toNat
  | .addr a            => .number a.toNat
  | o                  => .keyword o.shape

/-- A token says what an operand says that fits its field. -/
structure Means (t : Text) (o : Operand) : Prop where
  inRange : o.InRange
  meaning : Token.meaning? t = some o.meaning

section Readers

open Token

variable {t : Text} {x k n : Byte} {a : Word}

theorem means_register (h : register t = .ok x) : Means t (.reg x) := by
  obtain ⟨hindex, hx⟩ := read_bounded h (by decide)
  exact ⟨Nat.lt_succ_of_le hx, meaning?_of_registerIndex? hindex⟩

theorem means_value (hs : shape t = .byte) (h : value t = .ok k) : Means t (.byte k) := by
  obtain ⟨hnumber, -⟩ := read_bounded h (by decide)
  exact ⟨trivial, meaning?_of_number? (by simp [hs]) hnumber⟩

theorem means_nibble (hs : shape t = .byte) (h : nibble t = .ok n) : Means t (.digit n) := by
  obtain ⟨hnumber, hn⟩ := read_bounded h (by decide)
  exact ⟨Nat.lt_succ_of_le hn, meaning?_of_number? (by simp [hs]) hnumber⟩

theorem means_address (hs : shape t = .address) (h : address t = .ok a) : Means t (.addr a) := by
  obtain ⟨hnumber, ha⟩ := read_bounded h (by decide)
  exact ⟨Nat.lt_succ_of_le ha, meaning?_of_number? (by simp [hs]) hnumber⟩

/-- A token with the shape of a keyword says the keyword. -/
theorem means_keyword {o : Operand} (hs : shape t = o.shape)
    (ho : o ∈ [.index, .delay, .sound, .key, .font, .decimal]) : Means t o := by
  have hall : ∀ o ∈ [Operand.index, .delay, .sound, .key, .font, .decimal],
      o.shape ∉ [.register, .byte, .address] ∧ o.InRange ∧ o.meaning = .keyword o.shape := by
    decide
  obtain ⟨hword, hrange, hmeaning⟩ := hall o ho
  refine ⟨hrange, ?_⟩
  rw [meaning?, lookup_of_shape (hs ▸ hword), hs, hmeaning]

/-- What an operand says can be read off its text. -/
theorem means_text {o : Operand} (h : o.InRange) : Means o.text o := by
  have hs := Operand.shape_text h
  cases o with
  | reg x => exact means_register (Operand.register_text h)
  | byte k => exact means_value hs (Operand.value_text k)
  | digit n => exact means_nibble hs (Operand.nibble_text h)
  | addr a => exact means_address hs (Operand.address_text h)
  | _ => exact means_keyword hs (by decide)

/-- A token says the same as the text of the operand that it was read as. -/
theorem Means.agree {o : Operand} (h : Means t o) : Agree t o.text :=
  ⟨o.meaning, h.meaning, (means_text h.inRange).meaning⟩

/-- What tokens can say fits its fields. -/
theorem inRange_of_means {ts : List Text} {ops : List Operand} (h : List.Forall₂ Means ts ops) :
    ∀ o ∈ ops, o.InRange := by
  induction h with
  | nil => exact fun o ho => nomatch ho
  | cons hfirst _ ih => exact List.forall_mem_cons.mpr ⟨hfirst.inRange, ih⟩

end Readers

/-! ## Forms -/

namespace Statement

section Forms

variable {x y k n a : Text} {i : Instruction}

theorem bind_ok {α β : Type} {read : Except StatementError α}
    {rest : α → Except StatementError β} {b : β} (h : read >>= rest = .ok b) :
    ∃ v, read = .ok v ∧ rest v = .ok b := by
  cases read with
  | error e => cases h
  | ok v => exact ⟨v, rfl, h⟩

theorem ofRegister_ok {make : Byte → Instruction} (h : ofRegister make x = .ok i) :
    ∃ vx, i = make vx ∧ Means x (.reg vx) := by
  obtain ⟨vx, hx, hmake⟩ := bind_ok h
  exact ⟨vx, (Except.ok.inj hmake).symm, means_register hx⟩

theorem ofRegisters_ok {make : Byte → Byte → Instruction} (h : ofRegisters make x y = .ok i) :
    ∃ vx vy, i = make vx vy ∧ Means x (.reg vx) ∧ Means y (.reg vy) := by
  obtain ⟨vx, hx, hrest⟩ := bind_ok h
  obtain ⟨vy, hy, hmake⟩ := bind_ok hrest
  exact ⟨vx, vy, (Except.ok.inj hmake).symm, means_register hx, means_register hy⟩

theorem ofRegisterByte_ok {make : Byte → Byte → Instruction}
    (h : ofRegisterByte make x k = .ok i) (hk : Token.shape k = .byte) :
    ∃ vx vk, i = make vx vk ∧ Means x (.reg vx) ∧ Means k (.byte vk) := by
  obtain ⟨vx, hx, hrest⟩ := bind_ok h
  obtain ⟨vk, hvk, hmake⟩ := bind_ok hrest
  exact ⟨vx, vk, (Except.ok.inj hmake).symm, means_register hx, means_value hk hvk⟩

theorem ofAddress_ok {make : Word → Instruction} (h : Statement.ofAddress make a = .ok i)
    (ha : Token.shape a = .address) : ∃ va, i = make va ∧ Means a (.addr va) := by
  obtain ⟨va, hva, hmake⟩ := bind_ok h
  exact ⟨va, (Except.ok.inj hmake).symm, means_address ha hva⟩

/-- The register of a jump is the one it is written with. -/
theorem ofJumpPlus_ok (h : ofJumpPlus x a = .ok i) (ha : Token.shape a = .address) :
    ∃ va, i = .jumpPlus va ∧ Means x (.reg 0) ∧ Means a (.addr va) := by
  obtain ⟨vx, hx, hrest⟩ := bind_ok h
  by_cases hzero : vx = 0
  · subst hzero
    obtain ⟨va, hva, hmake⟩ := bind_ok hrest
    exact ⟨va, (Except.ok.inj hmake).symm, means_register hx, means_address ha hva⟩
  · rw [if_pos hzero] at hrest
    cases hrest

theorem ofDraw_ok (h : ofDraw x y n = .ok i) (hn : Token.shape n = .byte) :
    ∃ vx vy vn, i = .draw vx vy vn ∧
      Means x (.reg vx) ∧ Means y (.reg vy) ∧ Means n (.digit vn) := by
  obtain ⟨vx, hx, hrest⟩ := bind_ok h
  obtain ⟨vy, hy, hlast⟩ := bind_ok hrest
  obtain ⟨vn, hvn, hmake⟩ := bind_ok hlast
  exact ⟨vx, vy, vn, (Except.ok.inj hmake).symm, means_register hx, means_register hy,
    means_nibble hn hvn⟩

end Forms

/-- A statement that moves data is read as an instruction whose operands say the same. -/
theorem readLoad_means {ps : List (Shape × Text)} {i : Instruction}
    (hps : ∀ p ∈ ps, Token.shape p.2 = p.1) (h : readLoad ps = some (.ok i)) :
    i.mnemonic = .ld ∧ List.Forall₂ (fun p o => Means p.2 o) ps i.operands := by
  unfold readLoad at h
  split at h
  -- a row has one of four forms; a keyword stands before or behind the register
  all_goals simp only [List.forall_mem_cons, Option.some.injEq, reduceCtorEq] at hps h
  all_goals first
    | obtain ⟨vx, rfl, hx⟩ := ofRegister_ok h
      first
        | exact ⟨rfl, .cons hx (.cons (means_keyword hps.2.1 (by decide)) .nil)⟩
        | exact ⟨rfl, .cons (means_keyword hps.1 (by decide)) (.cons hx .nil)⟩
    | obtain ⟨vx, vy, rfl, hx, hy⟩ := ofRegisters_ok h
      exact ⟨rfl, .cons hx (.cons hy .nil)⟩
    | obtain ⟨vx, vk, rfl, hx, hk⟩ := ofRegisterByte_ok h hps.2.1
      exact ⟨rfl, .cons hx (.cons hk .nil)⟩
    | obtain ⟨va, rfl, ha⟩ := ofAddress_ok h hps.2.1
      exact ⟨rfl, .cons (means_keyword hps.1 (by decide)) (.cons ha .nil)⟩

/-- A statement is read as an instruction with its mnemonic, whose operands say the same. -/
theorem read_means {m : Mnemonic} {ps : List (Shape × Text)} {i : Instruction}
    (hps : ∀ p ∈ ps, Token.shape p.2 = p.1) (h : read m ps = some (.ok i)) :
    i.mnemonic = m ∧ List.Forall₂ (fun p o => Means p.2 o) ps i.operands := by
  unfold read at h
  split at h
  -- the row of `LD` is a table of its own, and every other row has one of the forms
  all_goals first
    | exact readLoad_means hps h
    | simp only [List.forall_mem_cons, Option.some.injEq, reduceCtorEq] at hps h
  all_goals first
    | cases h
      exact ⟨rfl, .nil⟩
    | obtain ⟨vx, rfl, hx⟩ := ofRegister_ok h
      first
        | exact ⟨rfl, .cons hx .nil⟩
        | exact ⟨rfl, .cons (means_keyword hps.1 (by decide)) (.cons hx .nil)⟩
    | obtain ⟨vx, vy, rfl, hx, hy⟩ := ofRegisters_ok h
      exact ⟨rfl, .cons hx (.cons hy .nil)⟩
    | obtain ⟨vx, vk, rfl, hx, hk⟩ := ofRegisterByte_ok h hps.2.1
      exact ⟨rfl, .cons hx (.cons hk .nil)⟩
    | obtain ⟨va, rfl, ha⟩ := ofAddress_ok h hps.1
      exact ⟨rfl, .cons ha .nil⟩
    | obtain ⟨va, rfl, hx, ha⟩ := ofJumpPlus_ok h hps.2.1
      exact ⟨rfl, .cons hx (.cons ha .nil)⟩
    | obtain ⟨vx, vy, vn, rfl, hx, hy, hn⟩ := ofDraw_ok h hps.2.2.1
      exact ⟨rfl, .cons hx (.cons hy (.cons hn .nil))⟩

/-- The instruction of a statement has the mnemonic of the statement, and its operands
    say what the operands of the statement say. -/
theorem instruction_means {mnemonic : Text} {operands : List Text} {i : Instruction}
    (h : instruction mnemonic operands = .ok i) :
    i.mnemonic.name = Mnemonic.canonical mnemonic ∧
      List.Forall₂ Means (operands.map Token.ofOperand) i.operands := by
  simp only [instruction] at h
  split at h
  · cases h
  · rename_i m hm
    split at h
    · cases h
    · rename_i answer hread
      subst h
      obtain ⟨hmnemonic, hoperands⟩ := read_means (by simp) hread
      have htokens := List.forall₂_map_left_iff.mp hoperands
      refine ⟨?_, htokens⟩
      rw [hmnemonic, Mnemonic.name_of_ofName? hm]

/-! ## The instruction of a statement, written -/

/-- The host's routines at 0E0 and 0EE share their words with clearing the screen and
    returning. -/
def Shadowed (mnemonic : Text) (operands : List Text) : Prop :=
  Mnemonic.canonical mnemonic = Mnemonic.name .sys ∧
    operands.map (fun t => Token.number? (Token.ofOperand t)) ∈ [[some 0x0E0], [some 0x0EE]]

instance (mnemonic : Text) (operands : List Text) : Decidable (Shadowed mnemonic operands) :=
  inferInstanceAs (Decidable (_ ∧ _))

/-- A statement of a routine of the host names its address. -/
theorem instruction_routine {mnemonic : Text} {operands : List Text} {a : Word}
    (h : instruction mnemonic operands = .ok (.routine a)) :
    Mnemonic.canonical mnemonic = Mnemonic.name .sys ∧
      operands.map (fun t => Token.number? (Token.ofOperand t)) = [some a.toNat] := by
  obtain ⟨hmnemonic, hoperands⟩ := instruction_means h
  refine ⟨hmnemonic.symm, ?_⟩
  cases operands with
  | nil => cases hoperands
  | cons t r =>
      cases hoperands with
      | cons ht hr =>
          have hnil : r = [] := List.map_eq_nil_iff.mp (List.forall₂_nil_right_iff.mp hr)
          rw [hnil, List.map_singleton, Token.number?_of_meaning? ht.meaning]

/-- The word of a statement stands for the instruction of the statement, unless it is the
    word of a shadowed routine. -/
theorem reduced_of_instruction {mnemonic : Text} {operands : List Text} {i : Instruction}
    (h : instruction mnemonic operands = .ok i) (hshadow : ¬ Shadowed mnemonic operands) :
    i.reduced = i := by
  refine Instruction.reduced_of_inRange (inRange_of_means (instruction_means h).2) ?_ ?_
  · rintro rfl
    obtain ⟨hsys, hnumber⟩ := instruction_routine h
    exact hshadow ⟨hsys, by rw [hnumber]; decide⟩
  · rintro rfl
    obtain ⟨hsys, hnumber⟩ := instruction_routine h
    exact hshadow ⟨hsys, by rw [hnumber]; decide⟩

/-- **MEANING**: the word that a statement assembles to stands for an instruction with
    just this word; and unless it is a shadowed routine, the text of the instruction
    falls into the mnemonic of the statement, by its own name, and as many operands as
    the statement has, each of which says what the statement's operand at its place says. -/
theorem encode_agrees {mnemonic : Text} {operands : List Text} {w : Word}
    (h : encode mnemonic operands = .ok w) :
    ∃ i, Instruction.decode (bigEndian (highByte w) (lowByte w)) = some i ∧ i.encode = w ∧
      (¬ Shadowed mnemonic operands →
        (Source.splitLine i.text).1 = Mnemonic.canonical mnemonic ∧
        List.Forall₂ Token.Agree (operands.map Token.ofOperand)
          (Source.splitLine i.text).2) := by
  cases hi : instruction mnemonic operands with
  | error e =>
      rw [encode_eq_map, hi] at h
      cases h
  | ok i =>
      have hw : i.encode = w := by
        rw [encode_eq_map, hi] at h
        exact Except.ok.inj h
      obtain ⟨hmnemonic, hoperands⟩ := instruction_means hi
      refine ⟨i.reduced, ?_, ?_, fun hshadow => ?_⟩
      · rw [bigEndian_highByte_lowByte, ← hw, i.decode_encode]
      · rw [i.encode_reduced, hw]
      · rw [reduced_of_instruction hi hshadow, Instruction.text, splitLine_statementText]
        exact ⟨hmnemonic, List.forall₂_map_right_iff.mpr (hoperands.imp fun _ _ => Means.agree)⟩

/-- A wait for a key, spelled in its own way. -/
theorem encode_agrees_wait :
    encode "load".toList [" v03".toList, "k ".toList] = .ok 0xF30A ∧
    ¬ Shadowed "load".toList [" v03".toList, "k ".toList] ∧
    ∃ i, Instruction.decode (bigEndian 0xF3 0x0A) = some i ∧ i.encode = 0xF30A ∧
      (Source.splitLine i.text).1 = "LD".toList ∧
      List.Forall₂ Token.Agree ["V03".toList, "K".toList] (Source.splitLine i.text).2 := by
  have h : encode "load".toList [" v03".toList, "k ".toList] = .ok 0xF30A := by decide
  have hshadow : ¬ Shadowed "load".toList [" v03".toList, "k ".toList] := by decide
  obtain ⟨i, hdecode, hencode, hsame⟩ := encode_agrees h
  exact ⟨h, hshadow, i, hdecode, hencode, hsame hshadow⟩

end Statement

end Chip8
