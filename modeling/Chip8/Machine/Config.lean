/-! # Configuration — pace, timers, transfers and seed

    The configuration does not change while a machine runs.  Times are in
    nanoseconds. -/

namespace Chip8

/-- How many registers a bulk transfer moves. -/
inductive BulkTransfer where
  /-- All sixteen, whichever is named. -/
  | allRegisters
  /-- Those up to the one that is named. -/
  | throughX
  deriving DecidableEq, Repr

/-- The settings of a machine. -/
structure Config where
  /-- The pause after an instruction, in nanoseconds. -/
  pause : Nat
  /-- The period of the timers, in nanoseconds; with zero they never tick by
      themselves. -/
  timerPeriod : Nat
  bulk : BulkTransfer
  /-- The seed of the random bytes, if it is fixed. -/
  seed : Option UInt64
  deriving DecidableEq, Repr

namespace Config

/-- 500 instructions and 60 ticks a second, transfers of all registers, no seed. -/
def standard : Config where
  pause := 2000000
  timerPeriod := 16667000
  bulk := .allRegisters
  seed := none

/-- The pause that makes a number of instructions a second, none for zero. -/
def pauseOfHertz (hz : Nat) : Nat := if hz = 0 then 0 else 1000000000 / hz

end Config

end Chip8
