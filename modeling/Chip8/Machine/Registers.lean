import Chip8.Machine.Fault

/-! # Registers — data, address, timers, program counter and stack

    The stack is a list with the latest return address first; `push?` refuses the
    seventeenth.  A `Snapshot` lays the stack out bottom-up in sixteen places. -/

namespace Chip8

/-- What the machine holds beside memory, screen and keypad. -/
structure Registers where
  /-- The data registers `V0` to `VF`. -/
  v : Vector Byte 16
  /-- The address register `I`, not reduced. -/
  index : Word
  delay : Byte
  sound : Byte
  /-- The program counter. -/
  pc : Word
  /-- The return addresses, latest first. -/
  stack : List Word
  deriving DecidableEq

namespace Registers

/-- The registers of a machine that has not begun. -/
def initial : Registers where
  v := Vector.replicate 16 0
  index := 0
  delay := 0
  sound := 0
  pc := 0x200
  stack := []

/-- The value of a data register. -/
def get (r : Registers) (x : Byte) : Byte := r.v[slot x]

/-- The registers with a data register replaced. -/
def set (r : Registers) (x value : Byte) : Registers :=
  { r with v := r.v.set (slot x).val value (slot x).isLt }

/-- The flag register. -/
def flagRegister : Byte := 0xF

/-- The flag as a register value. -/
def flagValue (flag : Bool) : Byte := if flag then 1 else 0

/-- The registers with the flag replaced and then a result stored, so that a
    result in the flag register stays. -/
def setFlagged (r : Registers) (x value : Byte) (flag : Bool) : Registers :=
  (r.set flagRegister (flagValue flag)).set x value

/-- The registers with a result stored and the flag replaced if there is one. -/
def setResult (r : Registers) (x value : Byte) : Option Bool → Registers
  | none      => r.set x value
  | some flag => r.setFlagged x value flag

/-- The values of the first data registers. -/
def first (r : Registers) (count : Nat) : List Byte := r.v.toList.take count

/-- Data registers with `n` of them replaced, each by its value, from the `i`-th on. -/
def replaceFrom (value : Nat → Byte) (i : Nat) : Nat → Vector Byte 16 → Vector Byte 16
  | 0,     v => v
  | n + 1, v =>
    let x := slot (BitVec.ofNat 8 i)
    replaceFrom value (i + 1) n (v.set x.val (value i) x.isLt)

/-- The registers with the first data registers replaced, one after the other. -/
def setFirst (r : Registers) (count : Nat) (value : Nat → Byte) : Registers :=
  { r with v := replaceFrom value 0 count r.v }

/-- Both timers one tick further down, as long as they are not at zero. -/
def tick (r : Registers) : Registers :=
  { r with
    delay := if r.delay = 0 then 0 else r.delay - 1
    sound := if r.sound = 0 then 0 else r.sound - 1 }

/-- Whether there is no room for another return address. -/
def stackFull (r : Registers) : Bool := stackDepth ≤ r.stack.length

/-- The registers with a return address pushed, if there is room. -/
def push? (r : Registers) (a : Word) : Option Registers :=
  if r.stackFull then none else some { r with stack := a :: r.stack }

/-- The latest return address and the registers without it, if there is one. -/
def pop? (r : Registers) : Option (Word × Registers) :=
  match r.stack with
  | []     => none
  | a :: s => some (a, { r with stack := s })

theorem get_set (r : Registers) (x y value : Byte) :
    (r.set x value).get y = if slot x = slot y then value else r.get y := by
  simp only [get, set, Fin.getElem_fin, Vector.getElem_set, Fin.ext_iff]

theorem get_setFlagged (r : Registers) (x y value : Byte) (flag : Bool) :
    (r.setFlagged x value flag).get y =
      if slot x = slot y then value
      else if slot flagRegister = slot y then flagValue flag else r.get y := by
  simp only [setFlagged, get_set]

/-- A data register in the range has its value, and any other the one that it had. -/
theorem get_replaceFrom (value : Nat → Byte) {i n : Nat} (h : i + n ≤ 16)
    (v : Vector Byte 16) (s : Fin 16) :
    (replaceFrom value i n v).get s =
      if i ≤ s.val ∧ s.val < i + n then value s.val else v.get s := by
  induction n generalizing i v with
  | zero => rw [if_neg (by omega), replaceFrom]
  | succ n ih =>
    have hslot : (slot (BitVec.ofNat 8 i)).val = i := by
      simp only [slot, BitVec.toNat_ofNat]
      omega
    have hset : (v.set (slot (BitVec.ofNat 8 i)).val (value i) (slot _).isLt).get s =
        if i = s.val then value i else v.get s := by
      show (v.set _ (value i) _)[s.val] = _
      simp only [Vector.getElem_set, hslot]
      rfl
    rw [replaceFrom, ih (by omega), hset]
    by_cases hs : i = s.val
    · rw [if_neg (by omega), if_pos hs, if_pos (by omega), hs]
    · rw [if_neg hs]
      congr 1
      rw [eq_iff_iff]
      omega

/-- Replacing the first data registers replaces just these. -/
theorem get_setFirst (r : Registers) {count : Nat} (h : count ≤ 16) (value : Nat → Byte)
    (s : Fin 16) :
    (r.setFirst count value).v.get s = if s.val < count then value s.val else r.v.get s := by
  rw [setFirst, get_replaceFrom value (by omega)]
  simp only [Nat.zero_le, true_and, Nat.zero_add]

end Registers

/-- The registers as they are shown. -/
structure Snapshot where
  pc : Word
  /-- The number of return addresses. -/
  depth : Byte
  /-- The return addresses, earliest first, with zeros after them. -/
  stack : Vector Word 16
  v : Vector Byte 16
  index : Word
  delay : Byte
  sound : Byte
  deriving DecidableEq

/-- The registers as they are shown. -/
def Registers.snapshot (r : Registers) : Snapshot where
  pc := r.pc
  depth := BitVec.ofNat 8 r.stack.length
  stack := putFrom (Vector.replicate 16 0) 0 r.stack.reverse
  v := putFrom (Vector.replicate 16 0) 0 r.v.toList
  index := r.index
  delay := r.delay
  sound := r.sound

end Chip8
