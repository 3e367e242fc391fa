import Chip8.Machine.Clock
import Chip8.Machine.Execute

/-! # Runs — steps until somebody stops the machine or a step fails

    Before every step the run looks whether it has been stopped; then the clock is read
    and the timer ticks that are due are applied, and then the step is made.  The moment
    of a stop may depend on how far the run has come, which `Progress` counts, and on the
    machine; a stop raised during a step is seen before the next one. -/

namespace Chip8

/-- How far a run has come. -/
structure Progress where
  /-- Steps begun. -/
  steps : Nat
  /-- How often the held keys were looked at. -/
  polls : Nat
  /-- How often a key was waited for. -/
  waits : Nat
  deriving DecidableEq, Repr

namespace Progress

/-- Nothing has happened. -/
def start : Progress := ⟨0, 0, 0⟩

/-- The progress when a step with this instruction, if any, has been begun. -/
def count (p : Progress) : Option Instruction → Progress
  | some (.skip (.keyDown _)) => { p with steps := p.steps + 1, polls := p.polls + 1 }
  | some (.skip (.keyUp _))   => { p with steps := p.steps + 1, polls := p.polls + 1 }
  | some (.loadKey _)         => { p with steps := p.steps + 1, waits := p.waits + 1 }
  | _                         => { p with steps := p.steps + 1 }

end Progress

/-- How a run ends. -/
inductive Ending where
  | stopped
  | failed (f : Fault)
  /-- It waits for a key that has not come, or has used up the steps allowed. -/
  | unfinished
  deriving DecidableEq, Repr

namespace Machine

/-- The instruction that the next step executes, if there is one. -/
def next? (m : Machine) : Option Instruction :=
  match m.fetch with
  | .ok (_, i) => some i
  | .error _   => none

/-- Whether the next step jumps to itself with both timers run out, so that no step
    changes anything any more. -/
def parked (m : Machine) : Bool :=
  m.next? == some (.jump m.registers.pc) && m.registers.delay == 0 && m.registers.sound == 0

/-- Runs for at most `fuel` steps from a progress on.  `stopped` tells whether the run
    has been stopped by then, and `instants` when the clock is read before a step. -/
def runWith (stopped : Progress → Machine → Bool) (instants : Nat → Nat) :
    Nat → TimerClock → Progress → Machine → Ending × Progress × Machine
  | 0,        _,     p, m => (if stopped p m then .stopped else .unfinished, p, m)
  | fuel + 1, clock, p, m =>
    if stopped p m then (.stopped, p, m)
    else
      let (due, clock) := clock.dueTicks (instants p.steps)
      let m := ticks due m
      let p := p.count m.next?
      match m.step with
      | (.ok (), m)            => runWith stopped instants fuel clock p m
      | (.error (.fault f), m) => (.failed f, p, m)
      | (.error .waiting, m)   => (.unfinished, p, m)

/-- Runs for at most `fuel` steps, with a clock for the timers that is started at an
    instant and read at others. -/
def run (stopped : Progress → Machine → Bool) (start : Nat) (instants : Nat → Nat)
    (fuel : Nat) (m : Machine) : Ending × Progress × Machine :=
  runWith stopped instants fuel (.new m.config.timerPeriod start) .start m

end Machine

end Chip8
