import Chip8.Machine.State

/-! # Execution — what an instruction does to the machine

    `Machine.execute` gives the change that an instruction makes and where the
    program goes on; `Machine.perform` then moves the program counter; and
    `Machine.step` performs the instruction that is fetched.  Each answers with
    the machine as it is afterwards, also on failure. -/

namespace Chip8

/-- Why an instruction did not complete. -/
inductive Halt where
  | fault (f : Fault)
  /-- It waits for a key and none has come yet. -/
  | waiting
  deriving DecidableEq, Repr

/-- Where the program goes on. -/
inductive Flow where
  | next
  | skip
  | jump (target : Word)
  deriving DecidableEq, Repr

/-- The program counter after an instruction at `pc`. -/
def Flow.target (pc : Word) : Flow → Word
  | next   => offset pc 2
  | skip   => offset pc 4
  | jump a => wrap a

/-- Going on after the next instruction or at it. -/
def Flow.skipIf (condition : Bool) : Flow := if condition then skip else next

/-! ## Values -/

/-- The value that an arithmetic instruction stores, of `Vx = a` and `Vy = b`. -/
def ArithOp.result (op : ArithOp) (a b : Byte) : Byte :=
  match op with
  | .move    => b
  | .or      => a ||| b
  | .and     => a &&& b
  | .xor     => a ^^^ b
  | .add     => a + b
  | .sub     => a - b
  | .subFrom => b - a

/-- The flag of an arithmetic instruction: carry, or no borrow. -/
def ArithOp.flag (op : ArithOp) (a b : Byte) : Option Bool :=
  match op with
  | .add     => some (255 < a.toNat + b.toNat)
  | .sub     => some (b ≤ a)
  | .subFrom => some (a ≤ b)
  | _        => none

/-- The value shifted by one place. -/
def Direction.result (d : Direction) (a : Byte) : Byte :=
  match d with
  | .right => a >>> 1
  | .left  => a <<< 1

/-- The bit that a shift drops. -/
def Direction.flag (d : Direction) (a : Byte) : Bool :=
  match d with
  | .right => a.getLsbD 0
  | .left  => a.getLsbD 7

/-- The decimal digits of a byte, hundreds first. -/
def decimalDigits (b : Byte) : List Byte := [b / 100, b / 10 % 10, b % 10]

/-- How many registers a transfer moves that names `Vx`. -/
def BulkTransfer.count (bulk : BulkTransfer) (x : Byte) : Nat :=
  match bulk with
  | .allRegisters => 16
  | .throughX     => (slot x).val + 1

/-- Where the picture of the low digit of a value begins. -/
def glyphAddress (value : Byte) : Word := BitVec.ofNat 16 (value.toNat % 16 * 5)

namespace Machine

/-- Whether a test holds. -/
def holds (m : Machine) : Test → Bool
  | .eqByte x k => m.registers.get x == k
  | .neByte x k => m.registers.get x != k
  | .eqReg x y  => m.registers.get x == m.registers.get y
  | .neReg x y  => m.registers.get x != m.registers.get y
  | .keyDown x  => m.keypad.held.isDown (m.registers.get x)
  | .keyUp x    => !m.keypad.held.isDown (m.registers.get x)

/-- The machine with a data register replaced. -/
def setReg (m : Machine) (x value : Byte) : Machine :=
  { m with registers := m.registers.set x value }

/-- Draws the sprite at the address register; the flag tells whether a lit pixel
    went dark. -/
def drawSprite (m : Machine) (x y rows : Byte) : Machine :=
  let r := m.registers
  let sprite := m.memory.readRange r.index rows.toNat
  let (screen, hit) := m.screen.draw sprite (r.get x) (r.get y)
  { m with screen, registers := r.set Registers.flagRegister (Registers.flagValue hit) }

/-- The change that an instruction makes and where the program goes on. -/
def execute (m : Machine) (i : Instruction) : Except Halt Flow × Machine :=
  let r := m.registers
  match i with
  | .routine _ =>
    (.error (.fault (.unsupportedInstruction i.encode r.pc)), m)
  | .clear =>
    (.ok .next, { m with screen := .blank })
  | .ret =>
    match r.pop? with
    | some (a, r) => (.ok (.jump a), { m with registers := r })
    | none        => (.error (.fault (.stackUnderflow r.pc)), m)
  | .jump a =>
    (.ok (.jump a), m)
  | .call a =>
    match r.push? (offset r.pc 2) with
    | some r => (.ok (.jump a), { m with registers := r })
    | none   => (.error (.fault (.stackOverflow r.pc)), m)
  | .jumpPlus a =>
    (.ok (.jump (a + (r.get 0).setWidth 16)), m)
  | .skip t =>
    (.ok (.skipIf (m.holds t)), m)
  | .loadByte x k =>
    (.ok .next, m.setReg x k)
  | .addByte x k =>
    (.ok .next, m.setReg x (r.get x + k))
  | .arith op x y =>
    (.ok .next, { m with
      registers := r.setResult x (op.result (r.get x) (r.get y)) (op.flag (r.get x) (r.get y)) })
  | .shift d x =>
    (.ok .next, { m with registers := r.setFlagged x (d.result (r.get x)) (d.flag (r.get x)) })
  | .loadIndex a =>
    (.ok .next, { m with registers := { r with index := a } })
  | .addIndex x =>
    (.ok .next, { m with registers := { r with index := r.index + (r.get x).setWidth 16 } })
  | .loadGlyph x =>
    (.ok .next, { m with registers := { r with index := glyphAddress (r.get x) } })
  | .random x k =>
    (.ok .next, { m with registers := r.set x (m.random.next &&& k), random := m.random.advance })
  | .draw x y n =>
    (.ok .next, m.drawSprite x y n)
  | .loadDelay x =>
    (.ok .next, m.setReg x r.delay)
  | .loadKey x =>
    match m.keypad.await with
    | (.pressed k, keypad) =>
      (.ok .next, { m with registers := r.set x (k &&& 0x0F), keypad })
    | (.closed, keypad) => (.error (.fault (.inputClosed r.pc)), { m with keypad })
    | (.silent, keypad) => (.error .waiting, { m with keypad })
  | .setDelay x =>
    (.ok .next, { m with registers := { r with delay := r.get x } })
  | .setSound x =>
    (.ok .next, { m with registers := { r with sound := r.get x } })
  | .storeDecimal x =>
    (.ok .next, { m with memory := m.memory.writeRange r.index (decimalDigits (r.get x)) })
  | .storeRegisters x =>
    (.ok .next, { m with memory := m.memory.writeRange r.index (r.first (m.config.bulk.count x)) })
  | .loadRegisters x =>
    (.ok .next, { m with
      registers := r.setFirst (m.config.bulk.count x)
        fun i => m.memory.read (offset r.index (BitVec.ofNat 16 i)) })

/-- The machine with the program counter moved. -/
def goTo (m : Machine) (pc : Word) : Machine :=
  { m with registers := { m.registers with pc } }

/-- Executes an instruction as if it had been fetched at the program counter, and
    moves the program counter on. -/
def perform (m : Machine) (i : Instruction) : Except Halt Unit × Machine :=
  match m.execute i with
  | (.ok flow, after) => (.ok (), after.goTo (flow.target m.registers.pc))
  | (.error h, after) => (.error h, after)

/-- Executes the instruction at the program counter. -/
def step (m : Machine) : Except Halt Unit × Machine :=
  match m.fetch with
  | .ok (_, i) => m.perform i
  | .error f   => (.error (.fault f), m)

/-- Up to `n` further steps after `done` ones, ending with the first that does not
    complete: how many have completed, and how the last one ended. -/
def stepsFrom (done : Nat) : Nat → Machine → Nat × Except Halt Unit × Machine
  | 0,     m => (done, .ok (), m)
  | n + 1, m =>
    match m.step with
    | (.ok (), m)   => stepsFrom (done + 1) n m
    | (.error h, m) => (done, .error h, m)

/-- Up to `n` steps, ending with the first that does not complete. -/
def steps (n : Nat) (m : Machine) : Nat × Except Halt Unit × Machine := stepsFrom 0 n m

/-- Executes the instruction at the program counter while another hand does something
    to the shared pad. -/
def stepDuring (m : Machine) (event : PadEvent) : Except Halt Unit × Machine :=
  let (outcome, after) := step { m with keypad := m.keypad.expect event }
  (outcome, { after with keypad := after.keypad.settle })

end Machine

end Chip8
