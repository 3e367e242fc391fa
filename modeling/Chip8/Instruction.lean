import Chip8.Word

/-! # Instructions — what the machine can be told to do

    An instruction keeps its operands as they were given: register selectors and
    values are bytes, addresses are 16-bit words, and nothing is reduced here.
    Instructions of one kind share a constructor (`skip`, `arith`, `shift`), so a
    fact about the kind is stated once. -/

namespace Chip8

/-- The question a skip asks. -/
inductive Test where
  /-- `Vx` holds the value. -/
  | eqByte (x value : Byte)
  /-- `Vx` holds another value. -/
  | neByte (x value : Byte)
  /-- `Vx` and `Vy` hold the same value. -/
  | eqReg (x y : Byte)
  /-- `Vx` and `Vy` hold different values. -/
  | neReg (x y : Byte)
  /-- The key whose code is in `Vx` is held down. -/
  | keyDown (x : Byte)
  /-- The key whose code is in `Vx` is not held down. -/
  | keyUp (x : Byte)
  deriving DecidableEq, Repr

/-- What is stored in `Vx`, computed from `Vx` and `Vy`. -/
inductive ArithOp where
  | move | or | and | xor | add | sub
  /-- `Vy - Vx`. -/
  | subFrom
  deriving DecidableEq, Repr

/-- Where the bits of a register move by one place. -/
inductive Direction where
  | right | left
  deriving DecidableEq, Repr

/-- An instruction with its operands. -/
inductive Instruction where
  /-- Call a routine of the host's own machine code. -/
  | routine (target : Word)
  /-- Clear the screen. -/
  | clear
  /-- Return from a subroutine. -/
  | ret
  | jump (target : Word)
  | call (target : Word)
  /-- Jump to the address plus `V0`. -/
  | jumpPlus (base : Word)
  /-- Leave the next instruction out if the test holds. -/
  | skip (test : Test)
  | loadByte (x value : Byte)
  | addByte (x value : Byte)
  | arith (op : ArithOp) (x y : Byte)
  | shift (direction : Direction) (x : Byte)
  /-- Set the address register. -/
  | loadIndex (target : Word)
  /-- Add `Vx` to the address register. -/
  | addIndex (x : Byte)
  /-- Point the address register at the font's picture of the low digit of `Vx`. -/
  | loadGlyph (x : Byte)
  /-- Store a random byte, masked, in `Vx`. -/
  | random (x mask : Byte)
  /-- Draw `rows` bytes of memory as a sprite at column `Vx`, row `Vy`. -/
  | draw (x y rows : Byte)
  | loadDelay (x : Byte)
  /-- Wait for a key to be pressed and store its code in `Vx`. -/
  | loadKey (x : Byte)
  | setDelay (x : Byte)
  | setSound (x : Byte)
  /-- Store the three decimal digits of `Vx` in memory. -/
  | storeDecimal (x : Byte)
  | storeRegisters (x : Byte)
  | loadRegisters (x : Byte)
  deriving DecidableEq, Repr

end Chip8
