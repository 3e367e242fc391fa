import Chip8.Text.Hex
import Chip8.Word

/-! # Faults — why a program cannot be loaded or go on

    A fault names the place: the address of the instruction that failed and,
    where there is one, the word found there. -/

namespace Chip8

/-- The room for a program, from where it is loaded to the end of memory. -/
def programCapacity : Nat := 3584

/-- How many subroutines can be nested. -/
def stackDepth : Nat := 16

/-- Why loading or executing failed. -/
inductive Fault where
  | programTooLarge (size max : Nat)
  | unknownOpcode (opcode address : Word)
  | unsupportedInstruction (opcode address : Word)
  | stackOverflow (address : Word)
  | stackUnderflow (address : Word)
  | misalignedProgramCounter (address : Word)
  /-- The keypad was closed while the program waited for a key. -/
  | inputClosed (address : Word)
  deriving DecidableEq, Repr

/-- A word as messages show it. -/
def shownWord (width : Nat) (w : Word) : String :=
  "0x" ++ String.ofList (Text.hex width w.toNat)

/-- The message of a fault. -/
def Fault.message : Fault → String
  | .programTooLarge size max =>
    "program does not fit in memory: " ++ toString size ++ " > " ++ toString max ++ " bytes"
  | .unknownOpcode w a => "unknown opcode " ++ shownWord 4 w ++ " at " ++ shownWord 3 a
  | .unsupportedInstruction w a =>
    "machine code routine " ++ shownWord 4 w ++ " at " ++ shownWord 3 a ++ " is not supported"
  | .stackOverflow a =>
    "stack overflow: call at " ++ shownWord 3 a ++ " exceeds " ++ toString stackDepth ++
      " nested subroutines"
  | .stackUnderflow a =>
    "stack underflow: return at " ++ shownWord 3 a ++ " with an empty call stack"
  | .misalignedProgramCounter a =>
    "program counter " ++ shownWord 3 a ++ " is not aligned to an instruction boundary"
  | .inputClosed a => "input source closed while waiting for a key at " ++ shownWord 3 a

end Chip8
