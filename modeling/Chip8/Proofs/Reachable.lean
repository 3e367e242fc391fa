import Chip8.Proofs.Schedules

/-! # Reachable machines — what can be done to a machine, and where it leads

    From outside a machine is stepped, given an instruction, ticked and run, while
    other hands handle its keypad.  A run is nothing but ticks and steps, so every
    machine that comes about is a loaded one after some actions in a row, and what
    every action keeps holds of all of them: `Reachable.invariant`. -/

namespace Chip8

/-! ## Actions -/

/-- What other hands can do to a keypad. -/
inductive KeypadEvent where
  | press (code : Byte)
  | release (code : Byte)
  | close
  | enqueue (code : Byte)
  | expect (event : PadEvent)
  | settle
  /-- They wait for a key themselves. -/
  | await
  deriving DecidableEq, Repr

/-- The keypad after an event. -/
def Keypad.apply (k : Keypad) : KeypadEvent → Keypad
  | .press code   => k.press code
  | .release code => k.release code
  | .close        => k.close
  | .enqueue code => k.enqueue code
  | .expect event => k.expect event
  | .settle       => k.settle
  | .await        => k.await.2

/-- What can be done to a machine at one go. -/
inductive Action where
  | step
  | perform (i : Instruction)
  | tick
  | handle (e : KeypadEvent)
  deriving DecidableEq, Repr

namespace Machine

/-- How an action ends, and the machine as it is then. -/
def act (m : Machine) : Action → Except Halt Unit × Machine
  | .step      => m.step
  | .perform i => m.perform i
  | .tick      => (.ok (), m.tick)
  | .handle e  => (.ok (), { m with keypad := m.keypad.apply e })

/-- The machine after actions in a row, whether they complete or not. -/
def after (m : Machine) : List Action → Machine
  | []     => m
  | a :: r => (m.act a).2.after r

/-- The instruction that an action has the machine execute, if there is one. -/
def executes (m : Machine) : Action → Option Instruction
  | .step      => m.next?
  | .perform i => some i
  | _          => none

theorem after_append (m : Machine) (s t : List Action) :
    m.after (s ++ t) = (m.after s).after t := by
  induction s generalizing m with
  | nil => rfl
  | cons a r ih => exact ih (m.act a).2

/-- An action that executes an instruction performs it. -/
theorem act_eq_perform {m : Machine} {a : Action} {i : Instruction}
    (h : m.executes a = some i) : m.act a = m.perform i := by
  cases a with
  | step =>
      show m.step = m.perform i
      have hnext : m.next? = some i := h
      cases hf : m.fetch with
      | error f =>
          simp only [next?, hf] at hnext
          cases hnext
      | ok found =>
          obtain ⟨w, j⟩ := found
          simp only [next?, hf, Option.some.injEq] at hnext
          simp only [step, hf, hnext]
  | perform j => rw [Option.some.inj h, act]
  | tick => cases h
  | handle e => cases h

/-- An action without an instruction reaches the keypad and the timers at most. -/
theorem act_eq_of_executes_none {m : Machine} {a : Action} (h : m.executes a = none) :
    ∃ keypad delay sound, (m.act a).2 =
      { m with keypad, registers := { m.registers with delay, sound } } := by
  cases a with
  | step =>
      show ∃ keypad delay sound, (m.step).2 = _
      have hnext : m.next? = none := h
      cases hf : m.fetch with
      | error f =>
          simp only [step, hf]
          exact ⟨m.keypad, m.registers.delay, m.registers.sound, rfl⟩
      | ok found =>
          simp only [next?, hf] at hnext
          cases hnext
  | perform i => cases h
  | tick => exact ⟨m.keypad, m.tick.registers.delay, m.tick.registers.sound, rfl⟩
  | handle e => exact ⟨m.keypad.apply e, m.registers.delay, m.registers.sound, rfl⟩

/-- An action without an instruction leaves the program counter and the stack alone. -/
theorem act_of_executes_none {m : Machine} {a : Action} (h : m.executes a = none) :
    (m.act a).2.registers.pc = m.registers.pc ∧
      (m.act a).2.registers.stack = m.registers.stack := by
  obtain ⟨keypad, delay, sound, heq⟩ := act_eq_of_executes_none h
  rw [heq]
  exact ⟨rfl, rfl⟩

/-! ## Runs are actions -/

theorem ticks_eq_after (n : Nat) (m : Machine) : ticks n m = m.after (.replicate n .tick) := by
  induction n generalizing m with
  | zero => rfl
  | succ n ih => exact ih m.tick

/-- The actions that a run amounts to: before every round the ticks that are due, then a
    step, and nothing behind a step that does not complete. -/
def runActions (stopped : Progress → Machine → Bool) (due : Nat → Nat) :
    Nat → Progress → Machine → List Action
  | 0,        _, _ => []
  | fuel + 1, p, m =>
    if stopped p m then []
    else
      let m := ticks (due p.steps) m
      .replicate (due p.steps) .tick ++ .step ::
        match m.step with
        | (.ok (), after) => runActions stopped due fuel (p.count m.next?) after
        | (.error _, _)   => []

/-- However it is stopped and whenever its timers tick, a run amounts to its actions in a
    row. -/
theorem runFrom_eq_after (stopped : Progress → Machine → Bool) (due : Nat → Nat)
    (fuel : Nat) (p : Progress) (m : Machine) :
    (runFrom stopped due fuel p m).2.2 = m.after (runActions stopped due fuel p m) := by
  induction fuel generalizing p m with
  | zero => rfl
  | succ fuel ih =>
      rw [runFrom, runActions]
      by_cases hstop : stopped p m = true
      · rw [if_pos hstop, if_pos hstop]
        rfl
      · rw [if_neg hstop, if_neg hstop]
        -- the due ticks and the step come before whatever the rest of the run does
        have hbegun : ∀ rest, m.after (.replicate (due p.steps) .tick ++ .step :: rest) =
            (ticks (due p.steps) m).step.2.after rest := by
          intro rest
          rw [after_append, ← ticks_eq_after]
          rfl
        simp only [hbegun]
        rcases (ticks (due p.steps) m).step with ⟨outcome, next⟩
        cases outcome with
        | ok => exact ih (p.count (ticks (due p.steps) m).next?) next
        | error halt => cases halt <;> rfl

/-- So does a run with a clock, by the ticks of its schedule. -/
theorem run_eq_after (stopped : Progress → Machine → Bool) (start : Nat)
    (instants : Nat → Nat) (fuel : Nat) (m : Machine) :
    ∃ actions, (run stopped start instants fuel m).2.2 = m.after actions := by
  rw [run_eq_runFrom, runFrom_eq_after]
  exact ⟨_, rfl⟩

/-! ## What comes about -/

/-- The machines that come about: the loaded ones, and those that an action or a run
    leads to from one of them. -/
inductive Reachable : Machine → Prop where
  | loaded {source : RandomSource} {image : List Byte} {keypad : Keypad} {config : Config}
      {m : Machine} : load source image keypad config = .ok m → Reachable m
  | acted {m : Machine} (a : Action) : Reachable m → Reachable (m.act a).2
  | ran {m : Machine} (stopped : Progress → Machine → Bool) (start : Nat)
      (instants : Nat → Nat) (fuel : Nat) :
      Reachable m → Reachable (run stopped start instants fuel m).2.2

theorem Reachable.after {m : Machine} (h : Reachable m) (actions : List Action) :
    Reachable (m.after actions) := by
  induction actions generalizing m with
  | nil => exact h
  | cons a r ih => exact ih (h.acted a)

section Invariant

variable {P : Machine → Prop} (hact : ∀ {m : Machine} (a : Action), P m → P (m.act a).2)
include hact

/-- What every action keeps, actions in a row keep. -/
theorem invariant_after {m : Machine} (h : P m) (actions : List Action) :
    P (m.after actions) := by
  induction actions generalizing m with
  | nil => exact h
  | cons a r ih => exact ih (hact a h)

/-- What holds of every loaded machine and is kept by every action holds of every
    machine that comes about. -/
theorem Reachable.invariant
    (hload : ∀ {source image keypad config} {m : Machine},
      load source image keypad config = .ok m → P m)
    {m : Machine} (h : Reachable m) : P m := by
  induction h with
  | loaded hl => exact hload hl
  | acted a _ ih => exact hact a ih
  | @ran m stopped start instants fuel _ ih =>
      obtain ⟨actions, hrun⟩ := run_eq_after stopped start instants fuel m
      rw [hrun]
      exact invariant_after hact ih actions

end Invariant

end Machine

end Chip8
