import Chip8.Proofs.CallStack
import Chip8.Proofs.Schedules
import Chip8.Proofs.StraightLine
import Mathlib.Logic.Function.Iterate

/-! # Rounds — a run is ticks and a step, again and again

    A run looks at the stop signal, applies the ticks that are due and makes one step;
    that is a round.  `Machine.Comes` tells to which rounds a run comes, without a bound
    on their number, and `Machine.Ends` from there how it ends: stopped before a round,
    or in the middle of one, with the ticks applied and the step undone.  A run that is
    given enough rounds does exactly this, and a run that goes on where another was
    stopped is one longer run. -/

namespace Chip8

/-- How a run ends whose step does not complete. -/
def Halt.ending : Halt → Ending
  | .fault f => .failed f
  | .waiting => .unfinished

namespace Machine

theorem ticks_eq_iterate (n : Nat) (m : Machine) : ticks n m = tick^[n] m := by
  induction n generalizing m with
  | zero => rfl
  | succ n ih => exact ih m.tick

/-! ## Where a run comes to and how it ends -/

section Specification

variable (stopped : Progress → Machine → Bool) (due : Nat → Nat) (m : Machine)

/-- The run comes to round `k`: all rounds before have completed, and before none of them
    it had been stopped. -/
inductive Comes : Nat → Progress → Machine → Prop where
  | start : Comes 0 .start m
  | round {k : Nat} {p : Progress} {n after : Machine} (before : Comes k p n)
      (goes : stopped p n = false) (done : (tick^[due k] n).step = (.ok (), after)) :
      Comes (k + 1) (p.count (tick^[due k] n).next?) after

/-- How a run of at most `fuel` rounds ends. -/
inductive Ends (fuel : Nat) : Ending × Progress × Machine → Prop where
  /-- It has been stopped before a round, and ends with the machine as it is. -/
  | stopped {k : Nat} {p : Progress} {n : Machine} (within : k ≤ fuel)
      (before : Comes stopped due m k p n) (stop : stopped p n = true) :
      Ends fuel (.stopped, p, n)
  /-- The step of a round does not complete: it fails, or waits for a key that does not
      come.  The machine is the one before the step. -/
  | halted {k : Nat} {p : Progress} {n : Machine} {halt : Halt} (within : k < fuel)
      (before : Comes stopped due m k p n) (goes : stopped p n = false)
      (halts : (tick^[due k] n).step.1 = .error halt) :
      Ends fuel (halt.ending, p.count (tick^[due k] n).next?, tick^[due k] n)
  /-- The rounds are used up. -/
  | exhausted {p : Progress} {n : Machine} (before : Comes stopped due m fuel p n)
      (goes : stopped p n = false) : Ends fuel (.unfinished, p, n)

end Specification

/-! ## One round -/

section Rounds

variable {stopped : Progress → Machine → Bool} {due : Nat → Nat} {p : Progress} {n : Machine}

theorem runFrom_stopped (stop : stopped p n = true) (fuel : Nat) :
    runFrom stopped due fuel p n = (.stopped, p, n) := by
  cases fuel with
  | zero => rw [runFrom, if_pos stop]
  | succ fuel => rw [runFrom, if_pos stop]

theorem runFrom_exhausted (goes : stopped p n = false) :
    runFrom stopped due 0 p n = (.unfinished, p, n) := by
  rw [runFrom, goes]
  rfl

variable (goes : stopped p n = false) (fuel : Nat)
include goes

theorem runFrom_round {after : Machine} (done : (tick^[due p.steps] n).step = (.ok (), after)) :
    runFrom stopped due (fuel + 1) p n =
      runFrom stopped due fuel (p.count (tick^[due p.steps] n).next?) after := by
  rw [runFrom, goes]
  simp only [Bool.false_eq_true, if_false, ticks_eq_iterate, done]

/-- A step that does not complete changes nothing, so the machine is left with its
    ticks. -/
theorem runFrom_halted {halt : Halt} (halts : (tick^[due p.steps] n).step.1 = .error halt) :
    runFrom stopped due (fuel + 1) p n =
      (halt.ending, p.count (tick^[due p.steps] n).next?, tick^[due p.steps] n) := by
  have hstep : (tick^[due p.steps] n).step = (.error halt, tick^[due p.steps] n) :=
    Prod.ext halts (step_error halts)
  rw [runFrom, goes]
  cases halt <;>
    simp only [Bool.false_eq_true, if_false, ticks_eq_iterate, hstep, Halt.ending]

end Rounds

/-! ## Whole runs -/

section Runs

variable {stopped : Progress → Machine → Bool} {due : Nat → Nat} {m : Machine}

theorem Comes.steps {k : Nat} {p : Progress} {n : Machine} (h : Comes stopped due m k p n) :
    p.steps = k := by
  induction h with
  | start => rfl
  | round _ _ _ ih => rw [Progress.steps_count, ih]

/-- From the round that it comes to, the run goes on as if it began there. -/
theorem Comes.runFrom_eq {k : Nat} {p : Progress} {n : Machine}
    (h : Comes stopped due m k p n) (fuel : Nat) :
    runFrom stopped due (k + fuel) .start m = runFrom stopped due fuel p n := by
  induction h generalizing fuel with
  | start => rw [Nat.zero_add]
  | @round k p n after before goes done ih =>
      obtain rfl : p.steps = k := before.steps
      rw [Nat.add_assoc, Nat.add_comm 1 fuel, ih (fuel + 1), runFrom_round goes fuel done]

/-- A run ends in one of the ways, whatever its bound. -/
theorem exists_ends (fuel : Nat) : ∃ r, Ends stopped due m fuel r := by
  -- with one round more, only a run that has used up its rounds goes on
  induction fuel with
  | zero =>
      cases hstop : stopped .start m with
      | true => exact ⟨_, .stopped (Nat.le_refl 0) .start hstop⟩
      | false => exact ⟨_, .exhausted .start hstop⟩
  | succ fuel ih =>
      obtain ⟨r, hr⟩ := ih
      cases hr with
      | stopped within before stop => exact ⟨_, .stopped (Nat.le_succ_of_le within) before stop⟩
      | halted within before goes halts =>
          exact ⟨_, .halted (Nat.lt_succ_of_lt within) before goes halts⟩
      | @exhausted p n before goes =>
          rcases hs : (tick^[due fuel] n).step with ⟨outcome, after⟩
          cases outcome with
          | ok =>
              have hnext := before.round goes hs
              cases hstop : stopped (p.count (tick^[due fuel] n).next?) after with
              | true => exact ⟨_, .stopped (Nat.le_refl _) hnext hstop⟩
              | false => exact ⟨_, .exhausted hnext hstop⟩
          | error halt => exact ⟨_, .halted (Nat.lt_succ_self fuel) before goes (by rw [hs])⟩

theorem Ends.runFrom_eq {fuel : Nat} {r : Ending × Progress × Machine}
    (h : Ends stopped due m fuel r) : runFrom stopped due fuel .start m = r := by
  cases h with
  | stopped within before stop =>
      obtain ⟨rest, rfl⟩ := Nat.exists_eq_add_of_le within
      rw [before.runFrom_eq, runFrom_stopped stop]
  | @halted k p n halt within before goes halts =>
      obtain ⟨rest, rfl⟩ := Nat.exists_eq_add_of_lt within
      obtain rfl : p.steps = k := before.steps
      rw [Nat.add_assoc, before.runFrom_eq, runFrom_halted goes rest halts]
  | exhausted before goes => rw [← Nat.add_zero fuel, before.runFrom_eq, runFrom_exhausted goes]

/-- A run ends in one way only, the one that the specification gives. -/
theorem runFrom_eq_iff {fuel : Nat} {r : Ending × Progress × Machine} :
    runFrom stopped due fuel .start m = r ↔ Ends stopped due m fuel r := by
  constructor
  · rintro rfl
    obtain ⟨r, hr⟩ := exists_ends fuel
    rw [hr.runFrom_eq]
    exact hr
  · exact Ends.runFrom_eq

theorem Ends.comes {fuel : Nat} {p : Progress} {n : Machine}
    (h : Ends stopped due m fuel (.stopped, p, n)) :
    ∃ k ≤ fuel, Comes stopped due m k p n ∧ stopped p n = true := by
  generalize hr : (Ending.stopped, p, n) = r at h
  cases h with
  | stopped within before stop =>
      cases hr
      exact ⟨_, within, before, stop⟩
  | @halted _ _ _ halt =>
      cases halt <;> cases hr
  | exhausted => cases hr

end Runs

/-! ## Runs one after the other -/

/-- The stop signal that is seen when `n` steps have been made. -/
def stopAfter (n : Nat) : Progress → Machine → Bool := fun p _ => n ≤ p.steps

theorem stopAfter_later {n : Nat} {p q : Progress} (h : p.steps = n + q.steps) (k : Nat)
    (m : Machine) : stopAfter (n + k) p m = stopAfter k q m := by
  simp only [stopAfter, h, Nat.add_le_add_iff_left]

/-- Counting the steps from later on changes nothing but the progress. -/
theorem runFrom_later (due : Nat → Nat) (n k fuel : Nat) {p q : Progress}
    (h : p.steps = n + q.steps) (m : Machine) :
    let whole := runFrom (stopAfter (n + k)) due fuel p m
    let rest := runFrom (stopAfter k) (fun j => due (n + j)) fuel q m
    whole.1 = rest.1 ∧ whole.2.2 = rest.2.2 := by
  -- both are stopped at once, or both make the same round
  induction fuel generalizing p q m with
  | zero =>
      rw [runFrom, runFrom, stopAfter_later h]
      exact ⟨rfl, rfl⟩
  | succ fuel ih =>
      have hp := stopAfter_later h k m
      cases hq : stopAfter k q m with
      | true =>
          rw [runFrom_stopped (hp.trans hq), runFrom_stopped hq]
          exact ⟨rfl, rfl⟩
      | false =>
          rcases hs : (tick^[due p.steps] m).step with ⟨outcome, after⟩
          have hs' : (tick^[due (n + q.steps)] m).step = (outcome, after) := h ▸ hs
          cases outcome with
          | ok =>
              rw [runFrom_round (hp.trans hq) fuel hs, runFrom_round hq fuel hs']
              refine ih ?_ after
              rw [Progress.steps_count, Progress.steps_count, h, Nat.add_assoc]
          | error halt =>
              rw [runFrom_halted (hp.trans hq) fuel (by rw [hs]),
                runFrom_halted hq fuel (by rw [hs']), h]
              exact ⟨rfl, rfl⟩

variable {due : Nat → Nat} {m : Machine}

theorem Comes.of_stopAfter {n j : Nat} {p : Progress} {l : Machine}
    (h : Comes (stopAfter n) due m j p l) (k : Nat) :
    Comes (stopAfter (n + k)) due m j p l := by
  induction h with
  | start => exact .start
  | round before goes done ih =>
      refine ih.round ?_ done
      simp only [stopAfter, decide_eq_false_iff_not] at goes ⊢
      omega

/-- No run comes further than to the round before which it is stopped. -/
theorem Comes.le_of_stopAfter {n k : Nat} {p : Progress} {l : Machine}
    (h : Comes (stopAfter n) due m k p l) : k ≤ n := by
  cases h with
  | start => exact Nat.zero_le n
  | round before goes done =>
      simp only [stopAfter, decide_eq_false_iff_not, before.steps] at goes
      omega

/-- A run that is stopped after `n` steps has come to round `n`. -/
theorem comes_of_stopped {n fuel : Nat} {p : Progress} {l : Machine}
    (h : runFrom (stopAfter n) due fuel .start m = (.stopped, p, l)) :
    Comes (stopAfter n) due m n p l := by
  obtain ⟨k, -, hcomes, hstop⟩ := (runFrom_eq_iff.mp h).comes
  simp only [stopAfter, hcomes.steps, decide_eq_true_eq] at hstop
  obtain rfl : k = n := Nat.le_antisymm hcomes.le_of_stopAfter hstop
  exact hcomes

/-- A run that is stopped after `n` steps and another from there that is stopped after
    `k` more are one run that is stopped after `n + k`. -/
theorem runFrom_in_a_row {n fuel : Nat} {p : Progress} {l : Machine}
    (h : runFrom (stopAfter n) due fuel .start m = (.stopped, p, l)) (k more : Nat) :
    let whole := runFrom (stopAfter (n + k)) due (n + more) .start m
    let rest := runFrom (stopAfter k) (fun j => due (n + j)) more .start l
    whole.1 = rest.1 ∧ whole.2.2 = rest.2.2 := by
  have hcomes := comes_of_stopped h
  rw [(hcomes.of_stopAfter k).runFrom_eq more]
  exact runFrom_later due n k more hcomes.steps l

/-- **ROUNDS**: a run is the run with the ticks of its clock's schedule, whatever the period
    of the timers and the instants at which the clock is read are; and whatever the ticks
    that fall due, the stop signal and the bound, a run ends as the rounds that it comes to
    tell.  Before each round the signal is looked at; then the ticks and a step are made;
    and a step that fails ends the run with the machine as it was before, whether or not
    the signal has been given meanwhile.  In particular

    * with a timer period of zero no ticks are due, and with any other period any numbers
      up to 255 are, at some instants;
    * a run that is stopped beforehand changes nothing;
    * a signal given during a step lets the step complete, and no other is made;
    * stopped after `n` steps and then, from there, after `k` more, two runs are one run
      that is stopped after `n + k` — with no ticks, or with those that are due later. -/
theorem run_rounds (stopped : Progress → Machine → Bool) (due : Nat → Nat) (m : Machine)
    (fuel : Nat) :
    let clock (start : Nat) := TimerClock.new m.config.timerPeriod start
    (∀ start instants, run stopped start instants fuel m =
      runFrom stopped ((clock start).schedule instants) fuel .start m) ∧
    (m.config.timerPeriod = 0 → ∀ start instants, (clock start).schedule instants = fun _ => 0) ∧
    (0 < m.config.timerPeriod → (∀ k, due k ≤ 255) →
      ∃ start instants, (clock start).schedule instants = due) ∧
    (∀ r, runFrom stopped due fuel .start m = r ↔ Ends stopped due m fuel r) ∧
    (stopped .start m = true → runFrom stopped due fuel .start m = (.stopped, .start, m)) ∧
    (∀ k p n after, k < fuel → Comes stopped due m k p n → stopped p n = false →
      (tick^[due k] n).step = (.ok (), after) →
      stopped (p.count (tick^[due k] n).next?) after = true →
      runFrom stopped due fuel .start m =
        (.stopped, p.count (tick^[due k] n).next?, after)) ∧
    (∀ n p l, runFrom (stopAfter n) due fuel .start m = (.stopped, p, l) → ∀ k more,
      let whole := runFrom (stopAfter (n + k)) due (n + more) .start m
      let rest := runFrom (stopAfter k) (fun j => due (n + j)) more .start l
      whole.1 = rest.1 ∧ whole.2.2 = rest.2.2) := by
  intro clock
  refine ⟨fun start instants => run_eq_runFrom stopped start instants fuel m, ?_,
    fun hpos hdue => TimerClock.exists_schedule hpos hdue, fun r => runFrom_eq_iff,
    fun h => runFrom_stopped h fuel, ?_, ?_⟩
  · intro hperiod start instants
    funext k
    exact TimerClock.schedule_of_zero hperiod instants k
  · intro k p n after hwithin hbefore hgoes hdone hstop
    exact runFrom_eq_iff.mpr (.stopped hwithin (hbefore.round hgoes hdone) hstop)
  · intro n p l h k more
    exact runFrom_in_a_row h k more

/-- A run that is stopped after two steps, and one from there that fails at the next step,
    before which three ticks are due: the longer run fails alike, although its signal is
    given during the step that fails, and it leaves the machine with the ticks. -/
theorem run_rounds_underflow :
    let instants (k : Nat) : Nat := if k < 2 then 0 else 60000000
    ∃ m p l, load (Keystream.source 0) (Program.image [.loadByte 1 5, .setDelay 1, .ret])
        .absent .standard = .ok m ∧
      run (stopAfter 2) 0 instants 2 m = (.stopped, p, l) ∧ l.registers.delay = 5 ∧
      (run (stopAfter 3) 0 instants 3 m).1 = .failed (.stackUnderflow 0x204) ∧
      (run (stopAfter 3) 0 instants 3 m).2.2 = tick^[3] l ∧
      (tick^[3] l).registers.delay = 2 := by
  intro instants
  obtain ⟨m, hload, hdue⟩ :=
    exists_load (p := [.loadByte 1 5, .setDelay 1, .ret]) (by decide) (Keystream.source 0)
      .absent .standard
  obtain ⟨memory, -, hm⟩ := eq_of_load hload
  generalize hk : (m.perform (.loadByte 1 5)).2 = k
  generalize hl : (k.perform (.setDelay 1)).2 = l
  have hsecond : Due 0x202 [.setDelay 1, .ret] k :=
    hdue.perform (by decide) (by decide) rfl (List.forall_mem_nil _) (by rw [← hk]; rfl)
  have hthird : Due 0x204 [.ret] l :=
    hsecond.perform (by decide) (by decide) rfl (List.forall_mem_nil _) (by rw [← hl]; rfl)
  have hfirst : m.step = (.ok (), k) := by
    rw [hdue.step (by decide) (by decide) rfl, ← hk]
    rfl
  have hnext : k.step = (.ok (), l) := by
    rw [hsecond.step (by decide) (by decide) rfl, ← hl]
    rfl
  have hlast : Due 0x204 [.ret] (tick^[3] l) := ⟨hthird.pc, hthird.code⟩
  have hunderflow : (tick^[3] l).step.1 = .error (.fault (.stackUnderflow 0x204)) := by
    rw [hlast.step (by decide) (by decide) rfl, ← hl, ← hk, hm]
    rfl
  -- three periods are over before the third step, and none before the others
  have hperiod : m.config.timerPeriod = 16667000 := by
    rw [hm]
    rfl
  generalize hschedule : (TimerClock.new m.config.timerPeriod 0).schedule instants = due
  obtain ⟨hnone, hnone', hthree⟩ : due 0 = 0 ∧ due 1 = 0 ∧ due 2 = 3 := by
    rw [← hschedule, hperiod]
    decide
  have hcomes : Comes (stopAfter 2) due m 1 (Progress.start.count (tick^[due 0] m).next?) k := by
    refine .round .start rfl ?_
    rw [hnone]
    exact hfirst
  have hdone : (tick^[due 1] k).step = (.ok (), l) := by
    rw [hnone']
    exact hnext
  have hhalts : (tick^[due 2] l).step.1 = .error (.fault (.stackUnderflow 0x204)) := by
    rw [hthree]
    exact hunderflow
  obtain ⟨hrun, -, -, -, -, hsignal, hrow⟩ := run_rounds (stopAfter 2) due m 2
  have hstopped := hsignal 1 _ k l (by decide) hcomes
    (by simp only [stopAfter, Progress.steps_count]; decide) hdone
    (by simp only [stopAfter, Progress.steps_count]; decide)
  have hrest := ((run_rounds (stopAfter 1) (fun j => due (2 + j)) l 1).2.2.2.1 _).mpr
    (.halted Nat.one_pos .start rfl hhalts)
  obtain ⟨hending, hmachine⟩ := hrow 2 _ l hstopped 1 1
  rw [hrest] at hending hmachine
  have hlonger := (run_rounds (stopAfter 3) due m 3).1 0 instants
  rw [hschedule] at hlonger
  have hshorter := hrun 0 instants
  rw [hschedule] at hshorter
  have hdelay : l.registers.delay = 5 := by
    rw [← hl, ← hk, hm]
    rfl
  refine ⟨m, _, l, hload, hshorter.trans hstopped, hdelay, ?_, ?_, ?_⟩
  · rw [hlonger]
    exact hending
  · rw [hlonger]
    exact hmachine.trans (congrArg (tick^[·] l) hthree)
  · show l.registers.tick.tick.tick.delay = 2
    simp only [Registers.tick, hdelay]
    decide

end Machine

end Chip8
