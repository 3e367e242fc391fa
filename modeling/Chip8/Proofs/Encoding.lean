import Chip8.Instruction.Opcode
import Chip8.Instruction.Written

/-! # Encoding — the word of an instruction, read back

    The word of an instruction keeps of each operand what fits its field.  Reading
    it gives `Instruction.reduced`, the instruction with its operands reduced in the
    same way — and the two words of family 0 that mean something else than a
    routine.  Reducing changes no word, so every word that stands for an instruction
    stands for one in range, and an instruction in range comes back as itself. -/

namespace Chip8

open Opcode

/-! ## Fields of the words that are written -/

theorem toNat_ofAddress {f : Nat} (hf : f < 16) (a : Word) :
    (ofAddress f a).toNat = f * 4096 + a.toNat % 4096 := by
  simp only [ofAddress, BitVec.toNat_ofNat]
  omega

theorem toNat_ofByte {f : Nat} (hf : f < 16) (x k : Byte) :
    (ofByte f x k).toNat = f * 4096 + x.toNat % 16 * 256 + k.toNat := by
  have hk := k.isLt
  simp only [ofByte, BitVec.toNat_ofNat]
  omega

theorem toNat_ofDigits {f : Nat} (hf : f < 16) (x y n : Byte) :
    (ofDigits f x y n).toNat =
      f * 4096 + x.toNat % 16 * 256 + y.toNat % 16 * 16 + n.toNat % 16 := by
  simp only [ofDigits, BitVec.toNat_ofNat]
  omega

/-- What a field of one digit keeps of a byte. -/
def lowDigit (x : Byte) : Byte := BitVec.ofNat 8 (x.toNat % 16)

@[simp] theorem lowDigit_zero : lowDigit 0#8 = 0#8 := rfl

@[simp] theorem toNat_lowDigit (x : Byte) : (lowDigit x).toNat = x.toNat % 16 := by
  simp only [lowDigit, BitVec.toNat_ofNat]
  omega

theorem lowDigit_of_lt {x : Byte} (h : x.toNat < 16) : lowDigit x = x := by
  apply BitVec.eq_of_toNat_eq
  rw [toNat_lowDigit, Nat.mod_eq_of_lt h]

theorem wrap_of_lt {a : Word} (h : a.toNat < 4096) : wrap a = a := by
  apply BitVec.eq_of_toNat_eq
  rw [toNat_wrap, Nat.mod_eq_of_lt h]

section Fields

variable {f : Nat} (hf : f < 16)
include hf

@[simp] theorem family_ofAddress (a : Word) : family (ofAddress f a) = f := by
  rw [family, toNat_ofAddress hf]
  omega

@[simp] theorem nnn_ofAddress (a : Word) : nnn (ofAddress f a) = wrap a := by
  apply BitVec.eq_of_toNat_eq
  rw [nnn, toNat_wrap, toNat_wrap, toNat_ofAddress hf]
  omega

@[simp] theorem family_ofByte (x k : Byte) : family (ofByte f x k) = f := by
  have hk := k.isLt
  rw [family, toNat_ofByte hf]
  omega

@[simp] theorem x_ofByte (x k : Byte) : Opcode.x (ofByte f x k) = lowDigit x := by
  have hk := k.isLt
  rw [Opcode.x, toNat_ofByte hf, lowDigit]
  congr 1
  omega

@[simp] theorem kk_ofByte (x k : Byte) : kk (ofByte f x k) = k := by
  have hk := k.isLt
  apply BitVec.eq_of_toNat_eq
  rw [kk, lowByte, toNat_ofByte hf, BitVec.toNat_ofNat]
  omega

@[simp] theorem family_ofDigits (x y n : Byte) : family (ofDigits f x y n) = f := by
  rw [family, toNat_ofDigits hf]
  omega

@[simp] theorem x_ofDigits (x y n : Byte) : Opcode.x (ofDigits f x y n) = lowDigit x := by
  rw [Opcode.x, toNat_ofDigits hf, lowDigit]
  congr 1
  omega

@[simp] theorem y_ofDigits (x y n : Byte) : Opcode.y (ofDigits f x y n) = lowDigit y := by
  rw [Opcode.y, toNat_ofDigits hf, lowDigit]
  congr 1
  omega

@[simp] theorem n_ofDigits (x y n : Byte) : Opcode.n (ofDigits f x y n) = lowDigit n := by
  rw [Opcode.n, toNat_ofDigits hf, lowDigit]
  congr 1
  omega

@[simp] theorem ofAddress_wrap (a : Word) : ofAddress f (wrap a) = ofAddress f a := by
  apply BitVec.eq_of_toNat_eq
  rw [toNat_ofAddress hf, toNat_ofAddress hf, toNat_wrap, Nat.mod_mod]

@[simp] theorem ofByte_lowDigit (x k : Byte) : ofByte f (lowDigit x) k = ofByte f x k := by
  apply BitVec.eq_of_toNat_eq
  rw [toNat_ofByte hf, toNat_ofByte hf, toNat_lowDigit, Nat.mod_mod]

@[simp] theorem ofDigits_lowDigit_left (x y n : Byte) :
    ofDigits f (lowDigit x) y n = ofDigits f x y n := by
  apply BitVec.eq_of_toNat_eq
  rw [toNat_ofDigits hf, toNat_ofDigits hf, toNat_lowDigit, Nat.mod_mod]

@[simp] theorem ofDigits_lowDigit_middle (x y n : Byte) :
    ofDigits f x (lowDigit y) n = ofDigits f x y n := by
  apply BitVec.eq_of_toNat_eq
  rw [toNat_ofDigits hf, toNat_ofDigits hf, toNat_lowDigit, Nat.mod_mod]

@[simp] theorem ofDigits_lowDigit_right (x y n : Byte) :
    ofDigits f x y (lowDigit n) = ofDigits f x y n := by
  apply BitVec.eq_of_toNat_eq
  rw [toNat_ofDigits hf, toNat_ofDigits hf, toNat_lowDigit, Nat.mod_mod]

end Fields

/-! ## Instructions with their operands reduced -/

/-- A skip with its register operands reduced. -/
def Test.reduced : Test → Test
  | .eqByte x k => .eqByte (lowDigit x) k
  | .neByte x k => .neByte (lowDigit x) k
  | .eqReg x y  => .eqReg (lowDigit x) (lowDigit y)
  | .neReg x y  => .neReg (lowDigit x) (lowDigit y)
  | .keyDown x  => .keyDown (lowDigit x)
  | .keyUp x    => .keyUp (lowDigit x)

/-- The instruction that the word of an instruction stands for. -/
def Instruction.reduced : Instruction → Instruction
  | .routine a        =>
    if wrap a = 0x0E0 then .clear else if wrap a = 0x0EE then .ret else .routine (wrap a)
  | .clear            => .clear
  | .ret              => .ret
  | .jump a           => .jump (wrap a)
  | .call a           => .call (wrap a)
  | .jumpPlus a       => .jumpPlus (wrap a)
  | .skip t           => .skip t.reduced
  | .loadByte x k     => .loadByte (lowDigit x) k
  | .addByte x k      => .addByte (lowDigit x) k
  | .arith op x y     => .arith op (lowDigit x) (lowDigit y)
  | .shift d x        => .shift d (lowDigit x)
  | .loadIndex a      => .loadIndex (wrap a)
  | .addIndex x       => .addIndex (lowDigit x)
  | .loadGlyph x      => .loadGlyph (lowDigit x)
  | .random x k       => .random (lowDigit x) k
  | .draw x y n       => .draw (lowDigit x) (lowDigit y) (lowDigit n)
  | .loadDelay x      => .loadDelay (lowDigit x)
  | .loadKey x        => .loadKey (lowDigit x)
  | .setDelay x       => .setDelay (lowDigit x)
  | .setSound x       => .setSound (lowDigit x)
  | .storeDecimal x   => .storeDecimal (lowDigit x)
  | .storeRegisters x => .storeRegisters (lowDigit x)
  | .loadRegisters x  => .loadRegisters (lowDigit x)

/-- Whether an operand fits its field. -/
def Operand.InRange : Operand → Prop
  | .reg x   => x.toNat < 16
  | .digit n => n.toNat < 16
  | .addr a  => a.toNat < 4096
  | _        => True

/-- Whether every operand of an instruction fits its field. -/
def Instruction.InRange (i : Instruction) : Prop := ∀ o ∈ i.operands, o.InRange

instance : DecidablePred Operand.InRange
  | .reg x   => inferInstanceAs (Decidable (x.toNat < 16))
  | .digit n => inferInstanceAs (Decidable (n.toNat < 16))
  | .addr a  => inferInstanceAs (Decidable (a.toNat < 4096))
  | .byte _  => isTrue trivial
  | .index   => isTrue trivial
  | .delay   => isTrue trivial
  | .sound   => isTrue trivial
  | .key     => isTrue trivial
  | .font    => isTrue trivial
  | .decimal => isTrue trivial

instance (i : Instruction) : Decidable i.InRange :=
  inferInstanceAs (Decidable (∀ o ∈ i.operands, o.InRange))

namespace Instruction

/-- The word of family 0 is the address itself. -/
theorem ofAddress_zero (a : Word) : ofAddress 0 a = wrap a := by
  apply BitVec.eq_of_toNat_eq
  rw [toNat_ofAddress (by decide), toNat_wrap, Nat.zero_mul, Nat.zero_add]

/-- Reading the word of an instruction gives the instruction with its operands
    reduced. -/
theorem decode_encode (i : Instruction) : decode i.encode = some i.reduced := by
  cases i with
  | routine a =>
      have hfamily : family (wrap a) = 0 := by
        rw [← ofAddress_zero, family_ofAddress (by decide)]
      have hnnn : nnn (wrap a) = wrap a := by
        rw [← ofAddress_zero, nnn_ofAddress (by decide), ofAddress_zero]
      show decode (ofAddress 0 a) = _
      rw [ofAddress_zero, decode, hfamily]
      simp only [hnnn, reduced]
  | clear => rfl
  | ret => rfl
  | skip t => cases t <;> simp [encode, Test.encode, decode, reduced, Test.reduced]
  | arith op x y => cases op <;> simp [encode, ArithOp.digit, decode, decodeArith, reduced]
  | shift d x => cases d <;> simp [encode, Direction.digit, decode, decodeArith, reduced]
  | _ => simp [encode, decode, decodeSingle, reduced]

theorem reduced_routine (a : Word) : (routine a).reduced =
    if wrap a = 0x0E0 then .clear else if wrap a = 0x0EE then .ret else .routine (wrap a) := rfl

/-- Reducing the operands does not change the word. -/
theorem encode_reduced (i : Instruction) : i.reduced.encode = i.encode := by
  cases i with
  | routine a =>
      show _ = ofAddress 0 a
      rw [ofAddress_zero, reduced_routine]
      split
      · rename_i h
        exact h.symm
      · split
        · rename_i h
          exact h.symm
        · show ofAddress 0 (wrap a) = wrap a
          rw [ofAddress_wrap (by decide), ofAddress_zero]
  | skip t => cases t <;> simp [encode, Test.encode, reduced, Test.reduced]
  | _ => simp [encode, reduced]

/-- Reduced operands fit their fields. -/
theorem inRange_reduced (i : Instruction) : i.reduced.InRange := by
  have hx : ∀ x : Byte, x.toNat % 16 < 16 := fun x => Nat.mod_lt _ (by decide)
  cases i with
  | routine a =>
      rw [reduced_routine]
      split
      · intro o ho
        cases ho
      · split
        · intro o ho
          cases ho
        · simp [InRange, operands, Operand.InRange, wrap_lt]
  | skip t =>
      cases t <;> simp [InRange, operands, Operand.InRange, reduced, Test.operands, Test.reduced, hx]
  | _ => simp [InRange, operands, Operand.InRange, reduced, wrap_lt, hx]

/-- An instruction in range is reduced, unless its word means something else. -/
theorem reduced_of_inRange {i : Instruction} (h : i.InRange)
    (hclear : i ≠ .routine 0x0E0) (hret : i ≠ .routine 0x0EE) : i.reduced = i := by
  cases i with
  | routine a =>
      have ha : wrap a = a := wrap_of_lt (h (.addr a) (List.mem_singleton.mpr rfl))
      have hnclear : a ≠ 0x0E0 := fun e => hclear (congrArg _ e)
      have hnret : a ≠ 0x0EE := fun e => hret (congrArg _ e)
      rw [reduced_routine, ha, if_neg hnclear, if_neg hnret]
  | skip t =>
      cases t <;>
        simp [InRange, operands, Test.operands, Operand.InRange] at h <;>
        simp [reduced, Test.reduced, lowDigit_of_lt, h]
  | clear => rfl
  | ret => rfl
  | _ =>
      simp [InRange, operands, Operand.InRange] at h
      simp [reduced, lowDigit_of_lt, wrap_of_lt, h]

end Instruction

end Chip8
