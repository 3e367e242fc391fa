import Chip8.Proofs.CallStack
import Chip8.Proofs.StraightLine

/-! # Ticks — a clock beside a program that does not look at it

    A tick lowers the timers and nothing else; three instructions read or set a timer, and
    all others leave both alone.  So as long as none of the three is executed, a machine
    whose timers stand elsewhere goes through the same steps, failing ones included, with
    its timers where they stood.  The ticks among the steps can then be moved behind them:
    how the two are interleaved decides nothing, and their numbers decide everything. -/

namespace Chip8

/-- Whether an instruction reads or sets a timer. -/
def Instruction.usesTimer : Instruction → Bool
  | .loadDelay _ => true
  | .setDelay _  => true
  | .setSound _  => true
  | _            => false

/-! ## Timers running down -/

/-- A timer after a number of ticks: it runs down to zero and stays there. -/
def lowered (ticks : Nat) (timer : Byte) : Byte := BitVec.ofNat 8 (timer.toNat - ticks)

theorem toNat_lowered (n : Nat) (t : Byte) : (lowered n t).toNat = t.toNat - n := by
  have ht := t.isLt
  rw [lowered, BitVec.toNat_ofNat]
  omega

@[simp] theorem lowered_zero (t : Byte) : lowered 0 t = t :=
  BitVec.eq_of_toNat_eq (toNat_lowered 0 t)

/-- Ticks add up, whether or not the timer runs out on the way. -/
theorem lowered_lowered (n k : Nat) (t : Byte) : lowered n (lowered k t) = lowered (n + k) t := by
  apply BitVec.eq_of_toNat_eq
  rw [toNat_lowered, toNat_lowered, toNat_lowered]
  omega

theorem lowered_one (t : Byte) : lowered 1 t = if t = 0 then 0 else t - 1 := by
  apply BitVec.eq_of_toNat_eq
  rw [toNat_lowered]
  by_cases h : t = 0
  · rw [if_pos h, h]
    rfl
  · have hpos : t.toNat ≠ 0 := fun hzero => h (BitVec.eq_of_toNat_eq hzero)
    have ht := t.isLt
    rw [if_neg h, BitVec.toNat_sub]
    show t.toNat - 1 = (2 ^ 8 - 1 + t.toNat) % 2 ^ 8
    omega

namespace Machine

/-! ## The timers apart from the rest -/

/-- The machine with other values in its timers. -/
def withTimers (m : Machine) (delay sound : Byte) : Machine :=
  { m with registers := { m.registers with delay, sound } }

theorem withTimers_self (m : Machine) :
    m.withTimers m.registers.delay m.registers.sound = m := rfl

theorem tick_withTimers (m : Machine) (delay sound : Byte) :
    (m.withTimers delay sound).tick = m.withTimers (lowered 1 delay) (lowered 1 sound) := by
  rw [lowered_one, lowered_one]
  rfl

theorem tick_eq_withTimers (m : Machine) :
    m.tick = m.withTimers (lowered 1 m.registers.delay) (lowered 1 m.registers.sound) :=
  tick_withTimers m m.registers.delay m.registers.sound

/-- An instruction that uses no timer does the same whatever the timers show, and leaves
    them as they are. -/
theorem execute_withTimers (m : Machine) {i : Instruction} (hi : i.usesTimer = false)
    (delay sound : Byte) :
    (m.withTimers delay sound).execute i =
      ((m.execute i).1, (m.execute i).2.withTimers delay sound) := by
  cases i with
  | loadDelay x => cases hi
  | setDelay x => cases hi
  | setSound x => cases hi
  -- these three ask the stack or the keypad, and no answer depends on a timer
  | ret =>
      rcases m with ⟨⟨v, index, delay', sound', pc, stack⟩, memory, screen, keypad, random, config⟩
      cases stack <;> rfl
  | call a =>
      simp only [execute, withTimers, Registers.push?, Registers.stackFull]
      by_cases hfull : stackDepth ≤ m.registers.stack.length
      · simp only [hfull, decide_true, if_true]
      · simp only [hfull, decide_false, if_false, Bool.false_eq_true]
  | loadKey x =>
      simp only [execute, withTimers]
      rcases m.keypad.await with ⟨answer, keypad⟩
      cases answer <;> rfl
  | arith op x y => cases op <;> rfl
  | _ => rfl

theorem perform_withTimers (m : Machine) {i : Instruction} (hi : i.usesTimer = false)
    (delay sound : Byte) :
    (m.withTimers delay sound).perform i =
      ((m.perform i).1, (m.perform i).2.withTimers delay sound) := by
  rw [perform, execute_withTimers m hi, perform]
  rcases m.execute i with ⟨result, after⟩
  cases result <;> rfl

/-- What is fetched does not depend on the timers. -/
theorem step_withTimers (m : Machine) (hi : ∀ i, m.next? = some i → i.usesTimer = false)
    (delay sound : Byte) :
    (m.withTimers delay sound).step = (m.step.1, m.step.2.withTimers delay sound) := by
  have hfetch : (m.withTimers delay sound).fetch = m.fetch := rfl
  rw [step, hfetch, step]
  cases hf : m.fetch with
  | error f => rfl
  | ok found =>
      have hnext : m.next? = some found.2 := by rw [next?, hf]
      exact perform_withTimers m (hi found.2 hnext) delay sound

/-! ## Actions that use no timer -/

/-- None of the actions in a row executes an instruction that uses a timer. -/
def IgnoresTimers : Machine → List Action → Prop
  | _, []     => True
  | m, a :: r =>
    (∀ i, m.executes a = some i → i.usesTimer = false) ∧ IgnoresTimers (m.act a).2 r

/-- How those of the actions in a row end that are no ticks. -/
def outcomes : Machine → List Action → List (Except Halt Unit)
  | _, []     => []
  | m, a :: r =>
    (if a = .tick then [] else [(m.act a).1]) ++ outcomes (m.act a).2 r

/-- The actions but for the ticks. -/
def withoutTicks (actions : List Action) : List Action := actions.filter (· ≠ .tick)

section Row

variable {a : Action} (ha : a ≠ .tick) (r : List Action)
include ha

theorem withoutTicks_cons : withoutTicks (a :: r) = a :: withoutTicks r :=
  List.filter_cons_of_pos (decide_eq_true ha)

theorem outcomes_cons (m : Machine) :
    m.outcomes (a :: r) = (m.act a).1 :: (m.act a).2.outcomes r := by
  rw [outcomes, if_neg ha]
  rfl

/-- No action but a tick moves the timers, if it executes nothing that uses one. -/
theorem act_withTimers (m : Machine) (hi : ∀ i, m.executes a = some i → i.usesTimer = false)
    (delay sound : Byte) :
    (m.withTimers delay sound).act a = ((m.act a).1, (m.act a).2.withTimers delay sound) := by
  cases a with
  | step => exact step_withTimers m hi delay sound
  | perform i => exact perform_withTimers m (hi i rfl) delay sound
  | tick => exact absurd rfl ha
  | handle e => rfl

end Row

theorem executes_withTimers (m : Machine) (a : Action) (delay sound : Byte) :
    (m.withTimers delay sound).executes a = m.executes a := by
  cases a <;> rfl

/-- Which instructions are executed does not depend on where the timers stand. -/
theorem ignoresTimers_withTimers {m : Machine} {actions : List Action} (delay sound : Byte) :
    (m.withTimers delay sound).IgnoresTimers actions ↔ m.IgnoresTimers actions := by
  induction actions generalizing m delay sound with
  | nil => exact Iff.rfl
  | cons a r ih =>
      rw [IgnoresTimers, IgnoresTimers, executes_withTimers]
      refine and_congr_right fun hi => ?_
      by_cases ha : a = .tick
      -- both have only their timers moved
      · subst ha
        show (m.withTimers delay sound).tick.IgnoresTimers r ↔ m.tick.IgnoresTimers r
        rw [tick_withTimers, tick_eq_withTimers, ih, ih]
      · rw [act_withTimers ha m hi]
        exact ih delay sound

/-- A tick executes nothing, and what follows executes the same without it. -/
theorem ignoresTimers_tick_cons {m : Machine} {actions : List Action} :
    m.IgnoresTimers (.tick :: actions) ↔ m.IgnoresTimers actions := by
  have htick : m.tick.IgnoresTimers actions ↔ m.IgnoresTimers actions := by
    rw [tick_eq_withTimers, ignoresTimers_withTimers]
  constructor
  · rintro ⟨-, hrest⟩
    exact htick.mp hrest
  · intro h
    exact ⟨fun i hi => absurd hi.symm (Option.some_ne_none i), htick.mpr h⟩

/-- Leaving out the ticks, the same instructions are executed. -/
theorem ignoresTimers_withoutTicks {m : Machine} {actions : List Action} :
    m.IgnoresTimers (withoutTicks actions) ↔ m.IgnoresTimers actions := by
  induction actions generalizing m with
  | nil => exact Iff.rfl
  | cons a r ih =>
      by_cases ha : a = .tick
      · subst ha
        rw [ignoresTimers_tick_cons]
        exact ih
      · rw [withoutTicks_cons ha, IgnoresTimers, IgnoresTimers, ih]

/-! ## Ticks behind the rest -/

/-- The ticks among actions that use no timer can be made behind them, and then only
    lower the timers that the machine began with. -/
theorem ticks_last {m : Machine} {actions : List Action} (h : m.IgnoresTimers actions)
    (delay sound : Byte) :
    (m.withTimers delay sound).outcomes actions = m.outcomes (withoutTicks actions) ∧
    (m.withTimers delay sound).after actions =
      (m.after (withoutTicks actions)).withTimers (lowered (actions.count .tick) delay)
        (lowered (actions.count .tick) sound) := by
  induction actions generalizing m delay sound with
  | nil =>
      rw [List.count_nil, lowered_zero, lowered_zero]
      exact ⟨rfl, rfl⟩
  | cons a r ih =>
      by_cases ha : a = .tick
      · subst ha
        obtain ⟨houtcomes, hafter⟩ :=
          ih (ignoresTimers_tick_cons.mp h) (lowered 1 delay) (lowered 1 sound)
        rw [lowered_lowered, lowered_lowered, ← tick_withTimers] at hafter
        rw [← tick_withTimers] at houtcomes
        rw [List.count_cons_self]
        exact ⟨houtcomes, hafter⟩
      · obtain ⟨hi, hr⟩ := h
        obtain ⟨houtcomes, hafter⟩ := ih hr delay sound
        rw [outcomes_cons ha, withoutTicks_cons ha, outcomes_cons ha, after, after,
          act_withTimers ha m hi, List.count_cons_of_ne ha]
        exact ⟨congrArg _ houtcomes, hafter⟩

/-- Without its ticks, a row of steps and ticks is so many steps. -/
theorem withoutTicks_eq_replicate {actions : List Action}
    (h : ∀ a ∈ actions, a = .step ∨ a = .tick) :
    withoutTicks actions = List.replicate (actions.count .step) .step := by
  rw [← List.filter_beq]
  refine List.filter_congr fun a ha => ?_
  rcases h a ha with rfl | rfl <;> rfl

/-- **TICKS COMMUTE WITH STEPS** that use no timer: in every state of the machine, any
    reordering of steps and ticks executes no timer either, has the same outcomes of its
    steps, failing ones included, and leaves the same machine.  The outcomes are those of
    the steps alone, and so is the machine but for its timers; these have run down by the
    number of ticks, to zero at most. -/
theorem ticks_commute {m : Machine} {actions reordered : List Action}
    (hactions : ∀ a ∈ actions, a = .step ∨ a = .tick) (hperm : reordered.Perm actions)
    (h : m.IgnoresTimers actions) :
    let steps := List.replicate (actions.count .step) Action.step
    let last := m.after actions
    m.IgnoresTimers reordered ∧
    m.outcomes reordered = m.outcomes actions ∧
    m.after reordered = last ∧
    m.outcomes actions = m.outcomes steps ∧
    last = (m.after steps).withTimers last.registers.delay last.registers.sound ∧
    last.registers.delay.toNat = m.registers.delay.toNat - actions.count .tick ∧
    last.registers.sound.toNat = m.registers.sound.toNat - actions.count .tick := by
  intro steps last
  have hreordered : ∀ a ∈ reordered, a = .step ∨ a = .tick :=
    fun a ha => hactions a (hperm.mem_iff.mp ha)
  have hsteps : withoutTicks actions = steps := withoutTicks_eq_replicate hactions
  have hsame : withoutTicks reordered = steps := by
    rw [withoutTicks_eq_replicate hreordered, hperm.count_eq]
  have hignores : m.IgnoresTimers reordered := by
    rwa [← ignoresTimers_withoutTicks, hsame, ← hsteps, ignoresTimers_withoutTicks]
  obtain ⟨houtcomes, hafter⟩ := ticks_last h m.registers.delay m.registers.sound
  obtain ⟨houtcomes', hafter'⟩ := ticks_last hignores m.registers.delay m.registers.sound
  rw [withTimers_self, hsteps] at houtcomes hafter
  rw [withTimers_self, hsame] at houtcomes' hafter'
  rw [hperm.count_eq] at hafter'
  have hlast : last = (m.after steps).withTimers (lowered (actions.count .tick) m.registers.delay)
      (lowered (actions.count .tick) m.registers.sound) := hafter
  refine ⟨hignores, houtcomes'.trans houtcomes.symm, hafter'.trans hafter.symm, houtcomes,
    ?_, ?_, ?_⟩
  · rw [hlast]
    rfl
  · rw [hlast]
    exact toNat_lowered _ _
  · rw [hlast]
    exact toNat_lowered _ _

/-- Two steps of which the second fails, with three ticks in between or behind: the delay
    timer runs out on the way, the sound timer does not. -/
theorem ticks_commute_underflow :
    let between : List Action := [.tick, .step, .tick, .step, .tick]
    let behind : List Action := [.step, .step, .tick, .tick, .tick]
    ∃ m : Machine, m.registers.delay = 2 ∧ m.registers.sound = 5 ∧
      (∀ a ∈ between, a = .step ∨ a = .tick) ∧ behind.Perm between ∧ m.IgnoresTimers between ∧
      m.outcomes between = [.ok (), .error (.fault (.stackUnderflow 0x202))] ∧
      m.outcomes behind = m.outcomes between ∧ m.after behind = m.after between ∧
      (m.after between).registers.delay.toNat = 0 ∧
      (m.after between).registers.sound.toNat = 2 := by
  intro between behind
  obtain ⟨loaded, hload, hdue⟩ :=
    exists_load (p := [.loadByte 1 7, .ret]) (by decide) (Keystream.source 0) .absent .standard
  obtain ⟨memory, -, hloaded⟩ := eq_of_load hload
  generalize hm : loaded.withTimers 2 5 = m
  have hfirst : Due 0x200 [.loadByte 1 7, .ret] m := hm ▸ ⟨hdue.pc, hdue.code⟩
  generalize hl : (m.perform (.loadByte 1 7)).2 = later
  have hsecond : Due 0x202 [.ret] later :=
    hfirst.perform (by decide) (by decide) rfl (List.forall_mem_nil _) (by rw [← hl]; rfl)
  have hstep : m.step = (.ok (), later) := by
    rw [hfirst.step (by decide) (by decide) rfl, ← hl]
    rfl
  have hfails : later.step.1 = .error (.fault (.stackUnderflow 0x202)) := by
    rw [hsecond.step (by decide) (by decide) rfl, ← hl, ← hm, hloaded]
    rfl
  have hsteps : m.IgnoresTimers [.step, .step] := by
    refine ⟨fun i hi => ?_, fun i hi => ?_, trivial⟩
    · rw [executes, next?, hfirst.fetch (by decide) (by decide) rfl] at hi
      rw [← Option.some.inj hi]
      rfl
    · rw [act, hstep, executes, next?, hsecond.fetch (by decide) (by decide) rfl] at hi
      rw [← Option.some.inj hi]
      rfl
  have hignores : m.IgnoresTimers between := ignoresTimers_withoutTicks.mp hsteps
  have hactions : ∀ a ∈ between, a = .step ∨ a = .tick := by decide
  have hperm : behind.Perm between := by decide
  obtain ⟨-, houtcomes, hafter, halone, -, hdelay, hsound⟩ :=
    ticks_commute hactions hperm hignores
  have hresults : m.outcomes [.step, .step] =
      [.ok (), .error (.fault (.stackUnderflow 0x202))] := by
    show [m.step.1, m.step.2.step.1] = _
    rw [hstep, hfails]
  refine ⟨m, ?_, ?_, hactions, hperm, hignores, halone.trans hresults, houtcomes, hafter, ?_, ?_⟩
  · rw [← hm]
    rfl
  · rw [← hm]
    rfl
  · rw [hdelay, ← hm]
    rfl
  · rw [hsound, ← hm]
    rfl

end Machine

end Chip8
