import Chip8.Proofs.Diagnosis

/-! # Fetching — an instruction in memory against the instruction itself

    The word of an instruction keeps of each operand what fits its field, so what is
    fetched is the instruction with its operands reduced.  The machine reduces operands on
    its own account, and in other places: a register where it is looked up, a target where
    the program counter moves.  As long as it drops whatever the word drops, an instruction
    does the same fetched from memory as given from outside.  Three kinds do not: the
    address register and the row count of a sprite are taken as they are, and the words of
    two routines mean something else. -/

namespace Chip8

/-- Whether the machine drops from the operands what the word drops. -/
def Instruction.SameFetched : Instruction → Prop
  | .routine a   => wrap a ≠ 0x0E0 ∧ wrap a ≠ 0x0EE
  | .loadIndex a => a.toNat ≤ 0xFFF
  | .draw _ _ n  => n.toNat ≤ 0xF
  | _            => True

/-! ## Operands that are reduced twice -/

@[simp] theorem wrap_wrap (a : Word) : wrap (wrap a) = wrap a :=
  wrap_of_lt (wrap_lt a)

/-- Reducing an address before something is added to it does not change the cell. -/
theorem wrap_add_wrap (a b : Word) : wrap (wrap a + b) = wrap (a + b) := by
  apply BitVec.eq_of_toNat_eq
  rw [toNat_wrap, toNat_wrap, BitVec.toNat_add, BitVec.toNat_add, toNat_wrap]
  omega

@[simp] theorem slot_lowDigit (x : Byte) : slot (lowDigit x) = slot x := by
  apply Fin.ext
  show (lowDigit x).toNat % 16 = x.toNat % 16
  rw [toNat_lowDigit, Nat.mod_mod]

namespace Registers

variable (r : Registers) (x value : Byte)

@[simp] theorem get_lowDigit : r.get (lowDigit x) = r.get x := by
  simp only [get, slot_lowDigit]

@[simp] theorem set_lowDigit : r.set (lowDigit x) value = r.set x value := by
  simp only [set, slot_lowDigit]

@[simp] theorem setResult_lowDigit (flag : Option Bool) :
    r.setResult (lowDigit x) value flag = r.setResult x value flag := by
  cases flag <;> simp only [setResult, setFlagged, set_lowDigit]

end Registers

@[simp] theorem BulkTransfer.count_lowDigit (bulk : BulkTransfer) (x : Byte) :
    bulk.count (lowDigit x) = bulk.count x := by
  cases bulk <;> simp only [count, slot_lowDigit]

namespace Machine

/-- A skip asks the same of the registers that its word keeps. -/
theorem holds_reduced (m : Machine) (t : Test) : m.holds t.reduced = m.holds t := by
  cases t <;> simp only [Test.reduced, holds, Registers.get_lowDigit]

/-! ## Instructions with their operands reduced -/

/-- With its operands reduced, an instruction has the same outcome and leaves the same
    machine. -/
theorem perform_reduced (m : Machine) {i : Instruction} (hi : i.SameFetched) :
    m.perform i.reduced = m.perform i := by
  cases i with
  | clear => rfl
  | ret => rfl
  -- the fault of a routine names its word
  | routine a =>
      obtain ⟨hclear, hret⟩ := hi
      have hreduced : (Instruction.routine a).reduced = .routine (wrap a) := by
        rw [Instruction.reduced_routine, if_neg hclear, if_neg hret]
      have hword : (Instruction.routine (wrap a)).encode = (Instruction.routine a).encode := by
        rw [← hreduced, Instruction.encode_reduced]
      rw [hreduced]
      simp only [perform, execute, hword]
  -- targets are reduced when the program counter moves
  | jump a => simp only [Instruction.reduced, perform, execute, Flow.target, wrap_wrap]
  | jumpPlus a => simp only [Instruction.reduced, perform, execute, Flow.target, wrap_add_wrap]
  | call a =>
      simp only [Instruction.reduced, perform, execute]
      cases m.registers.push? (offset m.registers.pc 2) with
      | none => rfl
      | some pushed => simp only [Flow.target, wrap_wrap]
  -- these two operands are taken as they are
  | loadIndex a =>
      have ha : wrap a = a := wrap_of_lt (Nat.lt_succ_of_le hi)
      rw [Instruction.reduced, ha]
  | draw x y n =>
      have hn : lowDigit n = n := lowDigit_of_lt (Nat.lt_succ_of_le hi)
      simp only [Instruction.reduced, hn, perform, execute, drawSprite, Registers.get_lowDigit]
  | skip t => simp only [Instruction.reduced, perform, execute, holds_reduced]
  | shift d x =>
      simp only [Instruction.reduced, perform, execute, Registers.setFlagged,
        Registers.get_lowDigit, Registers.set_lowDigit]
  | _ =>
      simp only [Instruction.reduced, perform, execute, setReg, Registers.get_lowDigit,
        Registers.set_lowDigit, Registers.setResult_lowDigit, BulkTransfer.count_lowDigit]

/-- The word of an instruction at the program counter makes a step perform the
    instruction with its operands reduced. -/
theorem step_of_word {m : Machine} {i : Instruction} (heven : m.registers.pc.toNat % 2 = 0)
    (hword : m.word = i.encode) : m.step = m.perform i.reduced :=
  step_of_decode heven (hword ▸ i.decode_encode)

/-- **FETCHED OR GIVEN**: where the two bytes at an even program counter are those of an
    instruction, a step has the outcome of the instruction and leaves the machine that the
    instruction leaves, in every state of the machine and with operands of any size — but
    for an address that is stored, a row count, and the routines 0E0 and 0EE. -/
theorem fetched_as_given {m : Machine} {i : Instruction} (hi : i.SameFetched)
    (heven : m.registers.pc.toNat % 2 = 0)
    (hhi : m.memory.read m.registers.pc = highByte i.encode)
    (hlo : m.memory.read (offset m.registers.pc 1) = lowByte i.encode) :
    m.step = m.perform i := by
  have hword : m.word = i.encode := by
    rw [word, Memory.readWord, hhi, hlo, bigEndian_highByte_lowByte]
  rw [step_of_word heven hword, perform_reduced m hi]

/-- A call of an address out of range, loaded and stepped. -/
theorem fetched_as_given_call :
    ∃ m, load (Keystream.source 0) (Program.image [.call 0xF457]) .absent .standard = .ok m ∧
      m.registers.pc.toNat % 2 = 0 ∧ m.step = m.perform (.call 0xF457) ∧
      m.step.2.registers.pc = 0x457 := by
  obtain ⟨m, hload, hdue⟩ :=
    exists_load (p := [.call 0xF457]) (by decide) (Keystream.source 0) .absent .standard
  obtain ⟨memory, -, hm⟩ := eq_of_load hload
  have hpc : m.registers.pc = 0x200 := by rw [hm]; rfl
  have heven : m.registers.pc.toNat % 2 = 0 := by rw [hpc]; rfl
  have hhi : m.memory.read m.registers.pc = 0x24 := hpc ▸ hdue.code 0 (by decide)
  have hlo : m.memory.read (offset m.registers.pc 1) = 0x57 := hpc ▸ hdue.code 1 (by decide)
  have hstep : m.step = m.perform (.call 0xF457) := fetched_as_given trivial heven hhi hlo
  refine ⟨m, hload, heven, hstep, ?_⟩
  rw [hstep, hm]
  rfl

end Machine

end Chip8
