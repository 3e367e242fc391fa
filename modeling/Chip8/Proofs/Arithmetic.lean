import Chip8.Machine.Execute

/-! # Arithmetic — results and flags in numbers, whichever registers are named

    Five operations compute a byte and a flag.  The operands are read first, then the flag
    register is set, and then the result is stored.  So the two operands can be the same
    register, either of them can be the flag register, and where the result goes to the
    flag register the flag is lost.  `Registers.get_setResult` says what any register holds
    then; what is left is to read each byte and each flag as a number. -/

namespace Chip8

/-! ## Bytes as numbers -/

section Numbers

variable (a b : Byte)

theorem toNat_add_cast : ((a + b).toNat : Int) = (a.toNat + b.toNat) % 256 := by
  rw [BitVec.toNat_add]
  rfl

theorem toNat_sub_cast : ((a - b).toNat : Int) = (a.toNat - b.toNat) % 256 := by
  have ha := a.isLt
  have hb := b.isLt
  rw [BitVec.toNat_sub]
  omega

theorem toNat_half : ((a >>> 1).toNat : Int) = a.toNat / 2 := by
  rw [BitVec.toNat_ushiftRight, Nat.shiftRight_eq_div_pow]
  rfl

theorem toNat_double : ((a <<< 1).toNat : Int) = 2 * a.toNat % 256 := by
  rw [BitVec.toNat_shiftLeft, Nat.shiftLeft_eq]
  omega

/-- A sum that is no byte any more has a carry. -/
theorem flag_add : ArithOp.add.flag a b = some (decide ((a.toNat : Int) + b.toNat > 255)) :=
  congrArg some (decide_eq_decide.mpr (by omega))

/-- A difference that is not negative has no borrow. -/
theorem flag_sub : ArithOp.sub.flag a b = some (decide ((a.toNat : Int) ≥ b.toNat)) :=
  congrArg some (decide_eq_decide.mpr Int.ofNat_le.symm)

theorem flag_subFrom : ArithOp.subFrom.flag a b = some (decide ((b.toNat : Int) ≥ a.toNat)) :=
  congrArg some (decide_eq_decide.mpr Int.ofNat_le.symm)

/-- The bit that falls out to the right tells whether the byte is odd. -/
theorem flag_right : Direction.right.flag a = decide ((a.toNat : Int) % 2 = 1) := by
  rw [Direction.flag, BitVec.getLsbD, Nat.testBit_zero]
  exact decide_eq_decide.mpr (by omega)

/-- The bit that falls out to the left tells whether the byte is 128 or more. -/
theorem flag_left : Direction.left.flag a = decide ((a.toNat : Int) ≥ 128) := by
  have ha := a.isLt
  rw [Direction.flag, BitVec.getLsbD, Nat.testBit_eq_decide_div_mod_eq]
  exact decide_eq_decide.mpr (by omega)

end Numbers

/-! ## The registers after a result is stored -/

namespace Registers

/-- What the flag register holds when the flag, if there is one, has been set and no
    result has been stored yet. -/
def flagged (r : Registers) : Option Bool → Byte
  | none      => r.get flagRegister
  | some flag => flagValue flag

theorem toNat_flagged (r : Registers) (flag : Prop) [Decidable flag] :
    ((r.flagged (some (decide flag))).toNat : Int) = if flag then 1 else 0 := by
  by_cases h : flag
  · rw [decide_eq_true h, if_pos h]
    rfl
  · rw [decide_eq_false h, if_neg h]
    rfl

/-- A result stands where it is stored, also in the flag register. -/
theorem get_setResult (r : Registers) (x value : Byte) (flag : Option Bool) (y : Byte) :
    (r.setResult x value flag).get y =
      if slot x = slot y then value
      else if slot flagRegister = slot y then r.flagged flag else r.get y := by
  cases flag with
  | some flag => exact r.get_setFlagged x y value flag
  | none =>
      rw [setResult, get_set, flagged]
      by_cases hflag : slot flagRegister = slot y
      · rw [if_pos hflag]
        simp only [get, hflag]
      · rw [if_neg hflag]

end Registers

namespace Machine

/-! ## What an operation leaves -/

/-- The other machine is what an operation leaves that yields the number `n` in `Vx` and
    the flag `f`: it holds `n` there, and `f` in the flag register unless this is `Vx`; all
    other data registers hold what they held; and beside the data registers only the
    program counter has moved. -/
structure Yields (m after : Machine) (x : Byte) (n f : Int) : Prop where
  result : ((after.registers.get x).toNat : Int) = n
  flag : x.toNat % 16 ≠ 15 → ((after.registers.get 0xF).toNat : Int) = f
  overwritten : x.toNat % 16 = 15 → ((after.registers.get 0xF).toNat : Int) = n
  others : ∀ z : Byte, z.toNat % 16 ≠ x.toNat % 16 → z.toNat % 16 ≠ 15 →
    after.registers.get z = m.registers.get z
  rest : after = { m with
    registers := { m.registers with
      v := after.registers.v
      pc := BitVec.ofNat 16 ((m.registers.pc.toNat + 2) % 4096) } }

/-- The instruction completes, and leaves such a machine. -/
def Computes (m : Machine) (i : Instruction) (x : Byte) (n f : Int) : Prop :=
  ∃ after, m.perform i = (.ok (), after) ∧ m.Yields after x n f

/-- A shift stores a result with a flag. -/
theorem execute_shift (m : Machine) (d : Direction) (x : Byte) :
    m.execute (.shift d x) = (.ok .next, { m with
      registers := m.registers.setResult x (d.result (m.registers.get x))
        (some (d.flag (m.registers.get x))) }) := rfl

/-- Adding a constant stores a result without a flag. -/
theorem execute_addByte (m : Machine) (x k : Byte) :
    m.execute (.addByte x k) = (.ok .next, { m with
      registers := m.registers.setResult x (m.registers.get x + k) none }) := rfl

/-- An instruction that stores a result and, if there is one, a flag, computes both. -/
theorem computes_of_setResult {m : Machine} {i : Instruction} {x value : Byte}
    {flag : Option Bool} {n f : Int}
    (h : m.execute i = (.ok .next, { m with registers := m.registers.setResult x value flag }))
    (hvalue : (value.toNat : Int) = n) (hflag : ((m.registers.flagged flag).toNat : Int) = f) :
    m.Computes i x n f := by
  let changed : Machine := { m with registers := m.registers.setResult x value flag }
  let after : Machine := changed.goTo (Flow.next.target m.registers.pc)
  have hget : ∀ z, after.registers.get z = (m.registers.setResult x value flag).get z := by
    intro z
    rfl
  simp only [Registers.get_setResult] at hget
  have hflagSlot : slot Registers.flagRegister = slot 0xF := rfl
  refine ⟨after, by rw [perform, h], ?_⟩
  constructor
  case result => rw [hget, if_pos rfl, hvalue]
  case flag =>
    intro hx
    rw [hget, if_neg (fun e => hx (slot_eq_iff.mp e)), if_pos hflagSlot, hflag]
  case overwritten =>
    intro hx
    rw [hget, if_pos (slot_eq_iff.mpr hx), hvalue]
  case others =>
    intro z hzx hz
    rw [hget, if_neg (fun e => hzx (slot_eq_iff.mp e).symm),
      if_neg (fun e => hz (slot_eq_iff.mp e).symm)]
  case rest =>
    have hpc : Flow.next.target m.registers.pc =
        BitVec.ofNat 16 ((m.registers.pc.toNat + 2) % 4096) := offset_eq_ofNat m.registers.pc 2
    rw [← hpc]
    cases flag <;> rfl

/-- **RESULTS AND FLAGS IN NUMBERS**: in every machine and for all registers, equal or not
    and the flag register among them, of the numbers `a` and `b` that `Vx` and `Vy` held
    before, the five operations with a flag store the sum, the two differences, the half
    and the double in `Vx`, reduced to a byte, and the carry, the missing borrow or the bit
    that falls out in the flag register, where the result does not replace it; and adding a
    constant leaves the flag register alone unless it is `Vx`. -/
theorem results_and_flags (m : Machine) (x y k : Byte) :
    let a : Int := (m.registers.get x).toNat
    let b : Int := (m.registers.get y).toNat
    m.Computes (.arith .add x y)     x ((a + b) % 256) (if a + b > 255 then 1 else 0) ∧
    m.Computes (.arith .sub x y)     x ((a - b) % 256) (if a ≥ b then 1 else 0) ∧
    m.Computes (.arith .subFrom x y) x ((b - a) % 256) (if b ≥ a then 1 else 0) ∧
    m.Computes (.shift .right x)     x (a / 2)         (if a % 2 = 1 then 1 else 0) ∧
    m.Computes (.shift .left x)      x (2 * a % 256)   (if a ≥ 128 then 1 else 0) ∧
    m.Computes (.addByte x k)        x ((a + k.toNat) % 256) (m.registers.get 0xF).toNat := by
  intro a b
  refine ⟨?add, ?sub, ?subFrom, ?right, ?left, ?addByte⟩
  case add =>
    refine computes_of_setResult rfl (toNat_add_cast _ _) ?_
    rw [flag_add, Registers.toNat_flagged]
  case sub =>
    refine computes_of_setResult rfl (toNat_sub_cast _ _) ?_
    rw [flag_sub, Registers.toNat_flagged]
  case subFrom =>
    refine computes_of_setResult rfl (toNat_sub_cast _ _) ?_
    rw [flag_subFrom, Registers.toNat_flagged]
  case right =>
    refine computes_of_setResult (m.execute_shift .right x) (toNat_half _) ?_
    rw [flag_right, Registers.toNat_flagged]
  case left =>
    refine computes_of_setResult (m.execute_shift .left x) (toNat_double _) ?_
    rw [flag_left, Registers.toNat_flagged]
  case addByte =>
    exact computes_of_setResult (m.execute_addByte x k) (toNat_add_cast _ _) rfl

/-- The flag register is added to itself: the sum stands there and the carry is lost. -/
example : (Registers.initial.set 0xF 0xC8).setResult 0xF (0xC8 + 0xC8) (some true) =
    Registers.initial.set 0x1F 0x90 := by decide

end Machine

end Chip8
