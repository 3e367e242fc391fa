import Chip8.Machine.Run

/-! # Schedules — the ticks of a run, told by its clock

    A clock that is asked at one instant after the other tells how many ticks are due at
    each, and that is its schedule.  A run asks its clock before every step, so it is the
    run with the ticks of that schedule, whatever the period and the instants are:
    `Machine.run_eq_runFrom`.  The clock counts period by period; what it finds is the
    number of periods that are over, as far as 255, and by choice of the instants it finds
    any numbers up to there. -/

namespace Chip8

namespace TimerClock

/-! ## Asking a clock -/

/-- How many periods are over at an instant, without a bound. -/
def periodsOver (c : TimerClock) (now : Nat) : Nat :=
  if now < c.next then 0 else (now - c.next) / c.interval + 1

/-- A period that is over is one of them, and the others are over after it. -/
theorem periodsOver_of_le {c : TimerClock} {now : Nat} (hpos : 0 < c.interval)
    (h : c.next ≤ now) :
    c.periodsOver now = periodsOver { c with next := c.next + c.interval } now + 1 := by
  rw [periodsOver, if_neg (Nat.not_lt.mpr h), periodsOver]
  by_cases hlast : now < c.next + c.interval
  · rw [if_pos hlast, Nat.div_eq_of_lt (by omega)]
  · rw [if_neg hlast, Nat.div_eq_sub_div hpos (by omega), Nat.sub_sub]

/-- Counting finds the periods that are over.  If there are not too many, the next tick is
    due a period after the last of them, and otherwise a period from now. -/
theorem count_eq {c : TimerClock} (hpos : 0 < c.interval) (now left : Nat) :
    c.count now left =
      if c.periodsOver now < left then
        (c.periodsOver now, { c with next := c.next + c.periodsOver now * c.interval })
      else (left, { c with next := now + c.interval }) := by
  induction left generalizing c with
  | zero => rw [count, if_neg (Nat.not_lt_zero _)]
  | succ left ih =>
      rw [count]
      by_cases h : c.next ≤ now
      · have hstep := periodsOver_of_le hpos h
        rw [if_pos h, ih (c := { c with next := c.next + c.interval }) hpos]
        by_cases hleft : c.periodsOver now < left + 1
        · rw [if_pos hleft, if_pos (by omega), hstep]
          simp only [Nat.add_mul, Nat.one_mul, Nat.add_assoc, Nat.add_comm c.interval]
        · rw [if_neg hleft, if_neg (by omega)]
      · have hnone : c.periodsOver now = 0 := if_pos (Nat.lt_of_not_le h)
        rw [if_neg h, hnone, if_pos (Nat.succ_pos left), Nat.zero_mul, Nat.add_zero]

/-- The ticks that are due are the periods that are over, but no more than 255, and none if
    the period is zero. -/
theorem ticks_due (c : TimerClock) (now : Nat) :
    (c.dueTicks now).1 = if c.interval = 0 then 0 else min 255 (c.periodsOver now) := by
  rw [dueTicks]
  by_cases hzero : c.interval = 0
  · rw [if_pos hzero, if_pos hzero]
  · rw [if_neg hzero, if_neg hzero, count_eq (Nat.pos_of_ne_zero hzero)]
    split
    · omega
    · omega

theorem interval_dueTicks (c : TimerClock) (now : Nat) :
    (c.dueTicks now).2.interval = c.interval := by
  rw [dueTicks]
  by_cases hzero : c.interval = 0
  · rw [if_pos hzero]
  · rw [if_neg hzero, count_eq (Nat.pos_of_ne_zero hzero)]
    split <;> rfl

/-! ## Asking it again and again -/

/-- The clock when it has been asked at the first `k` instants. -/
def asked (c : TimerClock) (instants : Nat → Nat) : Nat → TimerClock
  | 0     => c
  | k + 1 => ((c.asked instants k).dueTicks (instants k)).2

/-- How many ticks are due when the clock is asked at the `k`-th instant. -/
def schedule (c : TimerClock) (instants : Nat → Nat) (k : Nat) : Nat :=
  ((c.asked instants k).dueTicks (instants k)).1

theorem interval_asked (c : TimerClock) (instants : Nat → Nat) (k : Nat) :
    (c.asked instants k).interval = c.interval := by
  induction k with
  | zero => rfl
  | succ k ih => rw [asked, interval_dueTicks, ih]

/-- With a period of zero no ticks are ever due. -/
theorem schedule_of_zero {c : TimerClock} (h : c.interval = 0) (instants : Nat → Nat)
    (k : Nat) : c.schedule instants k = 0 := by
  rw [schedule, ticks_due, interval_asked, if_pos h]

/-- The sum of the first `k` numbers. -/
def total (due : Nat → Nat) : Nat → Nat
  | 0     => 0
  | k + 1 => total due k + due k

/-- Instants at which these numbers of ticks are due: each is as many whole periods after the
    one before as there shall be ticks. -/
def instantsFor (interval : Nat) (due : Nat → Nat) (k : Nat) : Nat := total due (k + 1) * interval

section Instants

variable {interval : Nat} (hpos : 0 < interval)
include hpos

theorem periodsOver_instantsFor (due : Nat → Nat) (k : Nat) :
    periodsOver ⟨interval, (total due k + 1) * interval⟩ (instantsFor interval due k) = due k := by
  show (if (total due k + due k) * interval < (total due k + 1) * interval then 0
    else ((total due k + due k) * interval - (total due k + 1) * interval) / interval + 1) = _
  rcases Nat.eq_zero_or_pos (due k) with hzero | hticks
  · rw [if_pos (Nat.mul_lt_mul_of_pos_right (by omega) hpos), hzero]
  · have hle : (total due k + 1) * interval ≤ (total due k + due k) * interval :=
      Nat.mul_le_mul_right interval (by omega)
    have hrest : (total due k + due k) * interval - (total due k + 1) * interval =
        (due k - 1) * interval := by
      rw [← Nat.sub_mul]
      congr 1
      omega
    rw [if_neg (Nat.not_lt.mpr hle), hrest, Nat.mul_div_cancel _ hpos]
    omega

variable {due : Nat → Nat} (hdue : ∀ k, due k ≤ 255)
include hdue

/-- Asked at these instants, a clock is a period ahead of the last of them. -/
theorem asked_instantsFor (k : Nat) :
    (new interval 0).asked (instantsFor interval due) k =
      ⟨interval, (total due k + 1) * interval⟩ := by
  induction k with
  | zero => simp only [asked, new, total, Nat.zero_add, Nat.one_mul]
  | succ k ih =>
      have hlast := hdue k
      rw [asked, ih, dueTicks, if_neg (Nat.ne_of_gt hpos), count_eq hpos,
        periodsOver_instantsFor hpos]
      split
      · simp only [total, TimerClock.mk.injEq, true_and, ← Nat.add_mul]
        congr 1
        omega
      · simp only [instantsFor, total, Nat.add_mul, Nat.one_mul]

/-- Any numbers up to 255 are the schedule of a clock with any period, at some instants. -/
theorem exists_schedule : ∃ start instants, (new interval start).schedule instants = due := by
  refine ⟨0, instantsFor interval due, ?_⟩
  funext k
  have hlast := hdue k
  rw [schedule, asked_instantsFor hpos hdue, ticks_due, if_neg (Nat.ne_of_gt hpos),
    periodsOver_instantsFor hpos]
  omega

end Instants

end TimerClock

theorem Progress.steps_count (p : Progress) (i : Option Instruction) :
    (p.count i).steps = p.steps + 1 := by
  unfold count
  split <;> rfl

namespace Machine

/-! ## Runs with a schedule -/

/-- Runs for at most `fuel` steps from a progress on.  `stopped` tells whether the run has
    been stopped by then, and `due` how many ticks fall due before a step. -/
def runFrom (stopped : Progress → Machine → Bool) (due : Nat → Nat) :
    Nat → Progress → Machine → Ending × Progress × Machine
  | 0,        p, m => (if stopped p m then .stopped else .unfinished, p, m)
  | fuel + 1, p, m =>
    if stopped p m then (.stopped, p, m)
    else
      let m := ticks (due p.steps) m
      let p := p.count m.next?
      match m.step with
      | (.ok (), m)            => runFrom stopped due fuel p m
      | (.error (.fault f), m) => (.failed f, p, m)
      | (.error .waiting, m)   => (.unfinished, p, m)

theorem runWith_eq_runFrom (stopped : Progress → Machine → Bool) (instants : Nat → Nat)
    (clock : TimerClock) (fuel : Nat) (p : Progress) (m : Machine) :
    runWith stopped instants fuel (clock.asked instants p.steps) p m =
      runFrom stopped (clock.schedule instants) fuel p m := by
  -- before every step the clock is the one that has been asked before every earlier one
  induction fuel generalizing p m with
  | zero => rfl
  | succ fuel ih =>
      rw [runWith, runFrom]
      by_cases hstop : stopped p m = true
      · rw [if_pos hstop, if_pos hstop]
      · rw [if_neg hstop, if_neg hstop]
        have hread : (clock.asked instants p.steps).dueTicks (instants p.steps) =
            (clock.schedule instants p.steps, clock.asked instants (p.steps + 1)) := rfl
        simp only [hread]
        rcases (ticks (clock.schedule instants p.steps) m).step with ⟨outcome, after⟩
        cases outcome with
        | ok =>
            have hrest := ih (p.count (ticks (clock.schedule instants p.steps) m).next?) after
            rw [Progress.steps_count] at hrest
            exact hrest
        | error halt => cases halt <;> rfl

/-- A run is the run with the ticks of its clock's schedule. -/
theorem run_eq_runFrom (stopped : Progress → Machine → Bool) (start : Nat)
    (instants : Nat → Nat) (fuel : Nat) (m : Machine) :
    run stopped start instants fuel m =
      runFrom stopped ((TimerClock.new m.config.timerPeriod start).schedule instants) fuel
        .start m :=
  runWith_eq_runFrom stopped instants (.new m.config.timerPeriod start) fuel .start m

end Machine

end Chip8
