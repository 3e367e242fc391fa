import Chip8.Proofs.Atomicity
import Chip8.Proofs.SideBySide

/-! # The address register — what counts is the cell it points to

    The address register is a whole word and runs on past the end of memory, while
    memory goes around after 4096 cells.  Every instruction that reads or writes through
    the register reduces each address on the way, so it meets the same cells from every
    word that names the same first cell; and an instruction that changes the register
    adds to it or replaces it.  So two machines that differ there by whole rounds of
    memory go on alike, whatever is done to both. -/

namespace Chip8

/-! ## Addresses of the same cell -/

section SameCell

variable {a b : Word} (h : a.toNat % 4096 = b.toNat % 4096)
include h

theorem offset_congr (n : Word) : offset a n = offset b n := by
  apply BitVec.eq_of_toNat_eq
  rw [toNat_offset, toNat_offset, Nat.add_mod, h, ← Nat.add_mod]

/-- Bytes are read from the same cells. -/
theorem Memory.readRange_congr (m : Memory) (count : Nat) :
    m.readRange a count = m.readRange b count := by
  rw [readRange, readRange]
  refine List.map_congr_left fun i _ => ?_
  rw [offset_congr h]

theorem Memory.writeFrom_congr (m : Memory) (i : Nat) (bytes : List Byte) :
    m.writeFrom a i bytes = m.writeFrom b i bytes := by
  induction bytes generalizing m i with
  | nil => rfl
  | cons v r ih => rw [writeFrom, writeFrom, offset_congr h, ih]

/-- Bytes are written to the same cells. -/
theorem Memory.writeRange_congr (m : Memory) (bytes : List Byte) :
    m.writeRange a bytes = m.writeRange b bytes :=
  m.writeFrom_congr h 0 bytes

end SameCell

namespace Machine

/-! ## Machines that differ in the address register -/

/-- The machine with another word in the address register. -/
def withIndex (m : Machine) (a : Word) : Machine :=
  { m with registers := { m.registers with index := a } }

/-- Machines that are equal but for the address registers, and these differ by whole
    rounds of memory. -/
structure IndexAlike (m m' : Machine) : Prop where
  others : m' = m.withIndex m'.registers.index
  index : m.registers.index.toNat % 4096 = m'.registers.index.toNat % 4096

namespace IndexAlike

variable {m m' : Machine} (h : m.IndexAlike m')
include h

theorem exists_withIndex :
    ∃ a, m.registers.index.toNat % 4096 = a.toNat % 4096 ∧ m' = m.withIndex a :=
  ⟨m'.registers.index, h.index, h.others⟩

/-! ## One action -/

/-- Executed from machines that are alike, an instruction reads and writes the same
    cells and changes the address registers alike. -/
theorem execute (i : Instruction) : SameAnswer IndexAlike (m.execute i) (m'.execute i) := by
  obtain ⟨a, hindex, rfl⟩ := h.exists_withIndex
  cases i with
  | ret =>
      rcases m with ⟨⟨v, index, delay, sound, pc, stack⟩, memory, screen, keypad, random, config⟩
      cases stack with
      | nil => exact ⟨rfl, rfl, hindex⟩
      | cons b s => exact ⟨rfl, rfl, hindex⟩
  | call t =>
      simp only [Machine.execute, Registers.push?, Registers.stackFull, withIndex]
      by_cases hfull : stackDepth ≤ m.registers.stack.length
      · simp only [hfull, decide_true, if_true]
        exact ⟨rfl, rfl, hindex⟩
      · simp only [hfull, decide_false, if_false, Bool.false_eq_true]
        exact ⟨rfl, rfl, hindex⟩
  | loadKey x =>
      simp only [Machine.execute, withIndex]
      rcases m.keypad.await with ⟨answer, keypad⟩
      cases answer with
      | pressed code => exact ⟨rfl, rfl, hindex⟩
      | closed => exact ⟨rfl, rfl, hindex⟩
      | silent => exact ⟨rfl, rfl, hindex⟩
  | arith op x y => cases op <;> exact ⟨rfl, rfl, hindex⟩
  -- the register is replaced, or the same is added to both
  | loadIndex t => exact ⟨rfl, rfl, rfl⟩
  | loadGlyph x => exact ⟨rfl, rfl, rfl⟩
  | addIndex x =>
      refine ⟨rfl, rfl, ?_⟩
      show (m.registers.index + (m.registers.get x).setWidth 16).toNat % 4096 =
        (a + (m.registers.get x).setWidth 16).toNat % 4096
      rw [BitVec.toNat_add, BitVec.toNat_add]
      omega
  -- memory is met through the register
  | draw x y n =>
      have hdrawn : (m.withIndex a).drawSprite x y n = (m.drawSprite x y n).withIndex a := by
        simp only [drawSprite, withIndex, Memory.readRange_congr hindex]
        rfl
      refine ⟨rfl, ?_⟩
      show (m.drawSprite x y n).IndexAlike ((m.withIndex a).drawSprite x y n)
      rw [hdrawn]
      exact ⟨rfl, hindex⟩
  | storeDecimal x =>
      refine ⟨rfl, ?_, hindex⟩
      simp only [Machine.execute, withIndex, Memory.writeRange_congr hindex]
      rfl
  | storeRegisters x =>
      refine ⟨rfl, ?_, hindex⟩
      simp only [Machine.execute, withIndex, Memory.writeRange_congr hindex]
      rfl
  | loadRegisters x =>
      refine ⟨rfl, ?_, hindex⟩
      simp only [Machine.execute, withIndex, offset_congr hindex]
      rfl
  | _ => exact ⟨rfl, rfl, hindex⟩

theorem goTo (pc : Word) : (m.goTo pc).IndexAlike (m'.goTo pc) := by
  obtain ⟨a, hindex, rfl⟩ := h.exists_withIndex
  exact ⟨rfl, hindex⟩

end IndexAlike

/-- What is done to both machines keeps them alike. -/
theorem sideBySide_indexAlike : SideBySide IndexAlike where
  pc h := by
    rw [h.others]
    rfl
  memory h := by
    rw [h.others]
    rfl
  execute h i := h.execute i
  goTo h pc := h.goTo pc
  tick h := by
    obtain ⟨a, hindex, rfl⟩ := h.exists_withIndex
    exact ⟨rfl, hindex⟩
  handle h e := by
    obtain ⟨a, hindex, rfl⟩ := h.exists_withIndex
    exact ⟨rfl, hindex⟩

/-- **THE ADDRESS REGISTER COUNTS AROUND MEMORY**: machines that are equal but for whole
    rounds of memory in the address register stay so through any actions in a row, the
    same for both; and at every point both fetch the same and every action has the same
    outcome on both. -/
theorem index_counts_around {m m' : Machine} (h : m.IndexAlike m') (actions : List Action) :
    (m.after actions).IndexAlike (m'.after actions) ∧
    (m.after actions).fetch = (m'.after actions).fetch ∧
    ∀ a, ((m.after actions).act a).1 = ((m'.after actions).act a).1 := by
  have hafter := sideBySide_indexAlike.after h actions
  exact ⟨hafter, sideBySide_indexAlike.fetch_eq hafter,
    fun a => (sideBySide_indexAlike.act hafter a).1⟩

/-- The last cell of memory, named by two words: three digits are stored around the end,
    and what is added then carries one register past 4096 and the other past 65536. -/
theorem index_counts_around_end :
    let m := (idle .absent).withIndex 0x0FFF
    let m' := (idle .absent).withIndex 0xFFFF
    let actions : List Action :=
      [.perform (.loadByte 1 0xFE), .perform (.storeDecimal 1), .perform (.addIndex 1)]
    m.IndexAlike m' ∧ (m.after actions).registers.index = 0x10FD ∧
      (m'.after actions).registers.index = 0x00FD ∧
      (m.after actions).memory = (m'.after actions).memory := by
  intro m m' actions
  have hcell : (0x0FFF : Word).toNat % 4096 = (0xFFFF : Word).toNat % 4096 := by decide
  have h : m.IndexAlike m' := ⟨rfl, hcell⟩
  obtain ⟨hafter, -, -⟩ := index_counts_around h actions
  refine ⟨h, rfl, ?_, (congrArg Machine.memory hafter.others).symm⟩
  show (0xFFFF : Word) + ((0xFE : Byte).setWidth 16) = 0x00FD
  decide

end Machine

end Chip8
