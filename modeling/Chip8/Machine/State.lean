import Chip8.Instruction.Opcode
import Chip8.Machine.Config
import Chip8.Machine.Keypad
import Chip8.Machine.Memory
import Chip8.Machine.Random
import Chip8.Machine.Registers
import Chip8.Machine.Screen

/-! # The machine — its state, how it begins, and what it is about to execute

    A machine is a value: registers, memory, screen, keypad, random bytes and
    settings.  Everything that happens to it is a function to the next value. -/

namespace Chip8

/-- The state of a machine. -/
structure Machine where
  registers : Registers
  memory : Memory
  screen : Screen
  keypad : Keypad
  random : RandomStream
  config : Config

namespace Machine

/-- A machine with a program image loaded, if it fits, and with the random bytes that
    the source has for its seed. -/
def load (source : RandomSource) (image : List Byte) (keypad : Keypad) (config : Config) :
    Except Fault Machine :=
  (Memory.load image).map fun memory =>
    { registers := .initial
      memory
      screen := .blank
      keypad
      random := source.stream config.seed
      config }

/-- Whether the sound timer is running. -/
def sounding (m : Machine) : Bool := m.registers.sound != 0

/-- The machine after a tick of the timers. -/
def tick (m : Machine) : Machine := { m with registers := m.registers.tick }

/-- The machine after a number of ticks. -/
def ticks : Nat → Machine → Machine
  | 0,     m => m
  | n + 1, m => ticks n m.tick

/-- The word and the instruction at the program counter. -/
def fetch (m : Machine) : Except Fault (Word × Instruction) :=
  let pc := m.registers.pc
  if pc.toNat % 2 ≠ 0 then .error (.misalignedProgramCounter pc)
  else
    let w := m.memory.readWord pc
    match Instruction.decode w with
    | some i => .ok (w, i)
    | none   => .error (.unknownOpcode w pc)

end Machine

end Chip8
