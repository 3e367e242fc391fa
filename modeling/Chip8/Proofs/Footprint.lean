import Chip8.Machine.Execute

/-! # Footprint — the cells that an instruction writes

    Two instructions write memory: one stores decimal digits, the other registers,
    both from the address register on and around the end of memory.
    `Machine.stored` gives the bytes and `Machine.written` the cells; every other
    cell keeps its byte. -/

namespace Chip8

namespace Memory

/-- The cells of a number of bytes from an address on, around the end. -/
def cellsFrom (a : Word) (count : Nat) : List (Fin 4096) :=
  (List.range count).map fun k => cell (offset a (BitVec.ofNat 16 k))

theorem read_writeFrom {m : Memory} {a b : Word} {i : Nat} {bytes : List Byte}
    (h : ∀ k < bytes.length, cell (offset a (BitVec.ofNat 16 (i + k))) ≠ cell b) :
    (m.writeFrom a i bytes).read b = m.read b := by
  induction bytes generalizing m i with
  | nil => rfl
  | cons v r ih =>
      have hfirst : cell (offset a (BitVec.ofNat 16 i)) ≠ cell b := h 0 (Nat.zero_lt_succ _)
      have hrest : ∀ k < r.length, cell (offset a (BitVec.ofNat 16 (i + 1 + k))) ≠ cell b := by
        intro k hk
        have hnext := h (k + 1) (Nat.succ_lt_succ hk)
        rwa [show i + (k + 1) = i + 1 + k by omega] at hnext
      rw [writeFrom, ih hrest, read_write, if_neg hfirst]

/-- A cell that is not among the cells of a range keeps its byte. -/
theorem read_writeRange {m : Memory} {a b : Word} {bytes : List Byte}
    (h : cell b ∉ cellsFrom a bytes.length) : (m.writeRange a bytes).read b = m.read b := by
  refine read_writeFrom fun k hk hcell => h ?_
  rw [Nat.zero_add] at hcell
  exact List.mem_map.mpr ⟨k, List.mem_range.mpr hk, hcell⟩

end Memory

namespace Machine

/-- The bytes that an instruction stores in memory. -/
def stored (m : Machine) : Instruction → List Byte
  | .storeDecimal x   => decimalDigits (m.registers.get x)
  | .storeRegisters x => m.registers.first (m.config.bulk.count x)
  | _                 => []

/-- The cells that an instruction stores its bytes in. -/
def written (m : Machine) (i : Instruction) : List (Fin 4096) :=
  Memory.cellsFrom m.registers.index (m.stored i).length

/-- Executing an instruction stores its bytes from the address register on and does
    nothing else to memory. -/
theorem execute_memory (m : Machine) (i : Instruction) :
    (m.execute i).2.memory = m.memory.writeRange m.registers.index (m.stored i) := by
  -- these three ask another part of the machine first, and leave memory alone either way
  cases i with
  | ret =>
      simp only [execute]
      split <;> rfl
  | call a =>
      simp only [execute]
      split <;> rfl
  | loadKey x =>
      simp only [execute]
      split <;> rfl
  | _ => rfl

/-- Performing an instruction moves the program counter besides. -/
theorem perform_memory (m : Machine) (i : Instruction) :
    (m.perform i).2.memory = m.memory.writeRange m.registers.index (m.stored i) := by
  rw [← execute_memory, perform]
  split
  · rename_i h
    rw [h]
    rfl
  · rename_i h
    rw [h]

/-- The cells that an instruction does not write keep their bytes. -/
theorem perform_read {m : Machine} {i : Instruction} {b : Word} (h : cell b ∉ m.written i) :
    (m.perform i).2.memory.read b = m.memory.read b := by
  rw [perform_memory]
  exact Memory.read_writeRange h

end Machine

end Chip8
