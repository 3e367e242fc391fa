/-! # Clocks — how many timer ticks are due

    A clock notes when the next period of the timers is over, and is asked from time to
    time how many are over by now.  Time is an instant in nanoseconds that the clock is
    told; it reads none by itself. -/

namespace Chip8

/-- A clock for the ticks of the timers. -/
structure TimerClock where
  /-- The period of the timers; none at all if it is zero. -/
  interval : Nat
  /-- When the next tick is due. -/
  next : Nat
  deriving DecidableEq, Repr

namespace TimerClock

/-- A clock that is started now. -/
def new (interval now : Nat) : TimerClock := ⟨interval, now + interval⟩

/-- Counts the periods that are over, up to `left` of them, and the clock afterwards.
    When none are left to count, the clock begins anew from now. -/
def count (now : Nat) : Nat → TimerClock → Nat × TimerClock
  | 0,        c => (0, { c with next := now + c.interval })
  | left + 1, c =>
    if c.next ≤ now then
      let (ticks, c) := count now left { c with next := c.next + c.interval }
      (ticks + 1, c)
    else (0, c)

/-- How many ticks are due now, and the clock afterwards.  After a long stall there are
    255, which is enough to run any timer out. -/
def dueTicks (c : TimerClock) (now : Nat) : Nat × TimerClock :=
  if c.interval = 0 then (0, c) else c.count now 255

end TimerClock

end Chip8
