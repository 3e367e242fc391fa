import Chip8.Proofs.Encoding
import Chip8.Proofs.Forms
import Mathlib.Algebra.Group.Nat.Defs
import Mathlib.Data.List.Forall2

/-! # Encoders — the assembler's words are the machine's words

    The assembler has a table of its own: families, suffixes and the places of operands.
    The machine has another one, the word of each instruction.  Row by row they agree: what
    an encoding makes of operands is the word of the instruction that the form of the same
    row makes of them, or the same error.  So the word of a statement is the word of its
    instruction, `Statement.encode_eq_map`. -/

namespace Chip8

open Opcode hiding ofAddress

/-! ## Fields put together -/

/-- Above a field that holds a number, an or is a sum. -/
theorem toNat_or_field {a b : Word} {i q : Nat} (ha : a.toNat = q * 2 ^ i)
    (hb : b.toNat < 2 ^ i) : (a ||| b).toNat = q * 2 ^ i + b.toNat := by
  rw [BitVec.toNat_or, ha, ← Nat.shiftLeft_eq, Nat.shiftLeft_add_eq_or_of_lt hb]

/-- The last digit of a byte, as a word. -/
theorem toNat_masked (b : Byte) : (b.setWidth 16 &&& 0xF : Word).toNat = b.toNat % 16 := by
  rw [BitVec.toNat_and, BitVec.toNat_setWidth_of_le (by decide)]
  exact Nat.and_two_pow_sub_one_eq_mod b.toNat 4

namespace Encoder

theorem toNat_leading {family : Byte} (h : family.toNat < 16) :
    (leading family).toNat = family.toNat * 4096 := by
  rw [leading, BitVec.toNat_shiftLeft, toNat_masked, Nat.shiftLeft_eq]
  omega

section Words

variable {family : Byte} (h : family.toNat < 16)
include h

theorem leading_or_address {a : Word} (ha : a.toNat ≤ 0xFFF) :
    leading family ||| a = Opcode.ofAddress family.toNat a := by
  apply BitVec.eq_of_toNat_eq
  rw [toNat_or_field (i := 12) (toNat_leading h) (by omega), toNat_ofAddress h]
  omega

/-- A register behind the family. -/
theorem toNat_leading_or_register {x : Byte} (hx : x.toNat ≤ 0xF) :
    (leading family ||| x.setWidth 16 <<< 8).toNat = (family.toNat * 16 + x.toNat) * 256 := by
  have hfield : (x.setWidth 16 <<< 8 : Word).toNat = x.toNat * 256 := by
    rw [BitVec.toNat_shiftLeft, BitVec.toNat_setWidth_of_le (by decide), Nat.shiftLeft_eq]
    omega
  rw [toNat_or_field (i := 12) (toNat_leading h) (by omega), hfield]
  omega

theorem leading_or_byte {x k : Byte} (hx : x.toNat ≤ 0xF) :
    leading family ||| x.setWidth 16 <<< 8 ||| k.setWidth 16 = ofByte family.toNat x k := by
  have hk : (k.setWidth 16 : Word).toNat = k.toNat := BitVec.toNat_setWidth_of_le (by decide)
  apply BitVec.eq_of_toNat_eq
  rw [toNat_or_field (i := 8) (toNat_leading_or_register h hx) (hk ▸ k.isLt), hk,
    toNat_ofByte h]
  omega

theorem leading_or_digits {x y n : Byte} {low : Word} (hx : x.toNat ≤ 0xF) (hy : y.toNat ≤ 0xF)
    (hlow : low.toNat = n.toNat % 16) :
    leading family ||| x.setWidth 16 <<< 8 ||| y.setWidth 16 <<< 4 ||| low =
      ofDigits family.toNat x y n := by
  have hfield : (y.setWidth 16 <<< 4 : Word).toNat = y.toNat * 16 := by
    rw [BitVec.toNat_shiftLeft, BitVec.toNat_setWidth_of_le (by decide), Nat.shiftLeft_eq]
    omega
  have hregisters : (leading family ||| x.setWidth 16 <<< 8 ||| y.setWidth 16 <<< 4).toNat =
      ((family.toNat * 16 + x.toNat) * 16 + y.toNat) * 16 := by
    rw [toNat_or_field (i := 8) (toNat_leading_or_register h hx) (by omega), hfield]
    omega
  apply BitVec.eq_of_toNat_eq
  rw [toNat_or_field (i := 4) hregisters (by omega), hlow, toNat_ofDigits h]
  omega

end Words

end Encoder

/-! ## What the readers find -/

section Readers

open Token

/-- A reader with a bound finds a number up to the bound, and takes it as it is. -/
theorem read_bounded {w bound : Nat} {found : Option Nat} {high missing : StatementError}
    {v : BitVec w}
    (h : (match found with
      | some n => if n ≤ bound then .ok (BitVec.ofNat w n) else .error high
      | none   => .error missing) = Except.ok v) (hw : bound < 2 ^ w) :
    found = some v.toNat ∧ v.toNat ≤ bound := by
  split at h
  · rename_i n
    split at h
    · rename_i hn
      cases h
      rw [BitVec.toNat_ofNat, Nat.mod_eq_of_lt (by omega)]
      exact ⟨rfl, hn⟩
    · cases h
  · cases h

variable {t : Text}

theorem toNat_le_of_register {x : Byte} (h : register t = .ok x) : x.toNat ≤ 0xF :=
  (read_bounded h (by decide)).2

theorem toNat_le_of_nibble {n : Byte} (h : nibble t = .ok n) : n.toNat ≤ 0xF :=
  (read_bounded h (by decide)).2

theorem toNat_le_of_address {a : Word} (h : address t = .ok a) : a.toNat ≤ 0xFFF :=
  (read_bounded h (by decide)).2

end Readers

/-! ## The two tables row by row -/

namespace Statement

/-- A form and an encoding that belong together: the same shapes, and the fields of the
    encoder are those of the word of the instruction. -/
inductive Form.Encodes : Form → Encoding → Prop where
  | fixed (i : Instruction) : Encodes (.fixed i) (.fixed i.encode)
  | address {make : Word → Instruction} {family : Byte} (h : family.toNat < 16)
      (hmake : ∀ a, (make a).encode = Opcode.ofAddress family.toNat a) :
      Encodes (.address make) (.address family)
  | addressBehind {make : Word → Instruction} {family : Byte} (word : Shape)
      (h : family.toNat < 16) (hmake : ∀ a, (make a).encode = Opcode.ofAddress family.toNat a) :
      Encodes (.addressBehind word make) ⟨[word, .address], .address family 1, Nat.le_refl 2⟩
  | jumpPlus {family : Byte} (h : family.toNat < 16)
      (hmake : ∀ a, (Instruction.jumpPlus a).encode = Opcode.ofAddress family.toNat a) :
      Encodes .jumpPlus ⟨[.register, .address], .offsetAddress family, Nat.le_refl 2⟩
  | register {make : Byte → Instruction} {family suffix : Byte} (h : family.toNat < 16)
      (hmake : ∀ x, (make x).encode = ofByte family.toNat x suffix) :
      Encodes (.register make) (.oneRegister family suffix)
  | registerBehind {make : Byte → Instruction} {suffix : Byte} (word : Shape)
      (hmake : ∀ x, (make x).encode = ofByte 0xF x suffix) :
      Encodes (.registerBehind word make) (.keyword word .register suffix 1)
  | registerBefore {make : Byte → Instruction} {suffix : Byte} (word : Shape)
      (hmake : ∀ x, (make x).encode = ofByte 0xF x suffix) :
      Encodes (.registerBefore word make) (.keyword .register word suffix 0)
  | registers {make : Byte → Byte → Instruction} {family suffix : Byte} (h : family.toNat < 16)
      (hmake : ∀ x y, (make x y).encode = ofDigits family.toNat x y suffix) :
      Encodes (.registers make) (.twoRegister family suffix)
  | registerByte {make : Byte → Byte → Instruction} {family : Byte} (h : family.toNat < 16)
      (hmake : ∀ x k, (make x k).encode = ofByte family.toNat x k) :
      Encodes (.registerByte make) (.registerByte family)
  | draw {family : Byte} (h : family.toNat < 16)
      (hmake : ∀ x y n, (Instruction.draw x y n).encode = ofDigits family.toNat x y n) :
      Encodes .draw
        ⟨[.register, .register, .byte], .twoRegisterNibble family, Nat.le_refl 3⟩

/-- The tables have the same rows in the same order. -/
theorem encodes_rows (m : Mnemonic) : List.Forall₂ Form.Encodes (forms m) m.encodings := by
  cases m with
  | sys => exact .cons (.address (by decide) fun _ => rfl) .nil
  | cls => exact .cons (.fixed .clear) .nil
  | ret => exact .cons (.fixed .ret) .nil
  | jp =>
      exact .cons (.address (by decide) fun _ => rfl)
        (.cons (.jumpPlus (by decide) fun _ => rfl) .nil)
  | call => exact .cons (.address (by decide) fun _ => rfl) .nil
  | se =>
      exact .cons (.registerByte (by decide) fun _ _ => rfl)
        (.cons (.registers (by decide) fun _ _ => rfl) .nil)
  | sne =>
      exact .cons (.registerByte (by decide) fun _ _ => rfl)
        (.cons (.registers (by decide) fun _ _ => rfl) .nil)
  | ld =>
      refine .cons (.registerByte (by decide) fun _ _ => rfl) ?_
      refine .cons (.registers (by decide) fun _ _ => rfl) ?_
      refine .cons (.addressBehind .index (by decide) fun _ => rfl) ?_
      refine .cons (.registerBefore .delay fun _ => rfl) ?_
      refine .cons (.registerBefore .key fun _ => rfl) ?_
      refine .cons (.registerBehind .delay fun _ => rfl) ?_
      refine .cons (.registerBehind .sound fun _ => rfl) ?_
      refine .cons (.registerBehind .font fun _ => rfl) ?_
      refine .cons (.registerBehind .decimal fun _ => rfl) ?_
      refine .cons (.registerBehind .index fun _ => rfl) ?_
      exact .cons (.registerBefore .index fun _ => rfl) .nil
  | add =>
      refine .cons (.registerByte (by decide) fun _ _ => rfl) ?_
      refine .cons (.registers (by decide) fun _ _ => rfl) ?_
      exact .cons (.registerBehind .index fun _ => rfl) .nil
  | or | and | xor | sub | subn =>
      exact .cons (.registers (by decide) fun _ _ => rfl) .nil
  -- the low byte of a shift is a digit behind the zero of its second register
  | shr | shl | skp | sknp => exact .cons (.register (by decide) fun _ => rfl) .nil
  | rnd => exact .cons (.registerByte (by decide) fun _ _ => rfl) .nil
  | drw => exact .cons (.draw (by decide) fun _ _ _ => rfl) .nil

namespace Form.Encodes

variable {f : Form} {e : Encoding}

theorem shapes_eq (h : f.Encodes e) : f.shapes = e.shapes := by
  cases h <;> rfl

theorem encode_bind {α : Type} {read : Except StatementError α}
    {word : α → Except StatementError Word} {make : α → Except StatementError Instruction}
    (h : ∀ v, read = .ok v → word v = (make v).map Instruction.encode) :
    read >>= word = (read >>= make).map Instruction.encode := by
  cases read with
  | error _ => rfl
  | ok v => exact h v rfl

/-- The encoder makes the word of the instruction that the form makes, and fails as it
    does. -/
theorem encode_eq (h : f.Encodes e) {ts : List Text} {mnemonic : Text}
    {r : Except StatementError Instruction} (hs : e.shapes = ts.map Token.shape)
    (hmakes : f.Makes ts r) (hjump : f = .jumpPlus → mnemonic = Mnemonic.name .jp) :
    e.encode mnemonic ts hs = r.map Instruction.encode := by
  cases h with
  | fixed i =>
      cases hmakes
      rfl
  | address h hmake =>
      cases hmakes
      refine encode_bind fun a ha => congrArg Except.ok ?_
      rw [Encoder.leading_or_address h (toNat_le_of_address ha), hmake]
  | addressBehind word h hmake =>
      cases hmakes
      refine encode_bind fun a ha => congrArg Except.ok ?_
      rw [Encoder.leading_or_address h (toNat_le_of_address ha), hmake]
  | jumpPlus h hmake =>
      cases hmakes
      rw [hjump rfl]
      refine encode_bind fun x hx => ?_
      by_cases hzero : x = 0
      · subst hzero
        refine encode_bind fun a ha => congrArg Except.ok ?_
        rw [Encoder.leading_or_address h (toNat_le_of_address ha), hmake]
      · rw [if_pos hzero, if_pos hzero]
        rfl
  | register h hmake =>
      cases hmakes
      refine encode_bind fun x hx => congrArg Except.ok ?_
      rw [Encoder.leading_or_byte h (toNat_le_of_register hx), hmake]
  | registerBehind word hmake =>
      cases hmakes
      refine encode_bind fun x hx => congrArg Except.ok ?_
      exact (Encoder.leading_or_byte (by decide) (toNat_le_of_register hx)).trans (hmake x).symm
  | registerBefore word hmake =>
      cases hmakes
      refine encode_bind fun x hx => congrArg Except.ok ?_
      exact (Encoder.leading_or_byte (by decide) (toNat_le_of_register hx)).trans (hmake x).symm
  | @registers _ _ suffix h hmake =>
      cases hmakes
      refine encode_bind fun x hx => encode_bind fun y hy => congrArg Except.ok ?_
      rw [Encoder.leading_or_digits h (toNat_le_of_register hx) (toNat_le_of_register hy)
        (toNat_masked suffix), hmake]
  | registerByte h hmake =>
      cases hmakes
      refine encode_bind fun x hx => encode_bind fun k _ => congrArg Except.ok ?_
      rw [Encoder.leading_or_byte h (toNat_le_of_register hx), hmake]
  | draw h hmake =>
      cases hmakes
      refine encode_bind fun x hx => encode_bind fun y hy => encode_bind fun n hn =>
        congrArg Except.ok ?_
      have hdigit := toNat_le_of_nibble hn
      have hlow : (n.setWidth 16 : Word).toNat = n.toNat % 16 := by
        rw [BitVec.toNat_setWidth_of_le (by decide)]
        omega
      rw [Encoder.leading_or_digits h (toNat_le_of_register hx) (toNat_le_of_register hy) hlow,
        hmake]

end Form.Encodes

/-! ## Statements -/

/-- The first encoding that fits stands in the row of a form with the shapes of the tokens;
    and if none fits, no form has these shapes. -/
theorem fitting_rows {fs : List Form} {es : List Encoding} (h : List.Forall₂ Form.Encodes fs es)
    (ts : List Text) :
    (∃ f e, f ∈ fs ∧ f.Encodes e.val ∧ Encoding.fitting ts es = some e) ∨
      Encoding.fitting ts es = none ∧ ∀ f ∈ fs, f.shapes ≠ ts.map Token.shape := by
  induction h with
  | nil => exact Or.inr ⟨rfl, List.forall_mem_nil _⟩
  | @cons f e fs es hrow _ ih =>
      by_cases hs : e.shapes = ts.map Token.shape
      · exact Or.inl ⟨f, ⟨e, hs⟩, List.mem_cons_self, hrow, dif_pos hs⟩
      · have hnext : Encoding.fitting ts (e :: es) = Encoding.fitting ts es := dif_neg hs
        rw [hnext]
        rcases ih with ⟨g, e', hg, hrow', hfound⟩ | ⟨hnone, hothers⟩
        · exact Or.inl ⟨g, e', List.mem_cons_of_mem f hg, hrow', hfound⟩
        · exact Or.inr ⟨hnone, List.forall_mem_cons.mpr ⟨hrow.shapes_eq ▸ hs, hothers⟩⟩

/-- The word of a statement is the word of its instruction, and the errors are the same. -/
theorem encode_eq_map (mnemonic : Text) (operands : List Text) :
    encode mnemonic operands = (instruction mnemonic operands).map Instruction.encode := by
  cases hm : Mnemonic.ofName? (Mnemonic.canonical mnemonic) with
  | none =>
      rw [instruction_of_unknown hm]
      simp only [encode, hm]
      rfl
  | some m =>
      rcases fitting_rows (encodes_rows m) (operands.map Token.ofOperand) with
        ⟨f, e, hf, hrow, hfound⟩ | ⟨hnone, hothers⟩
      · have hs := hrow.shapes_eq.trans e.property
        simp only [encode, hm, hfound]
        refine hrow.encode_eq e.property (makes_instruction hm hf hs) ?_
        rintro rfl
        rw [← Mnemonic.name_of_ofName? hm, eq_jp_of_jumpPlus hf]
      · rw [instruction_of_no_form hm hothers]
        simp only [encode, hm, hnone]
        rfl

end Statement

end Chip8
