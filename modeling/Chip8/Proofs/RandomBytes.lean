import Chip8.Proofs.Bracketing
import Chip8.Proofs.StraightLine

/-! # Random bytes — one for each instruction that asks for one

    Of the stream of random bytes a machine keeps the position alone, and one kind of
    instruction moves it, by one.  So the position is the number of these instructions that
    have been completed, however they came to be executed, and the byte that the next of
    them gets is the one at that place, whatever else happens before, in between or in
    vain. -/

namespace Chip8

/-- Whether an instruction asks for a random byte. -/
def Instruction.isRandom : Instruction → Bool
  | .random _ _ => true
  | _           => false

namespace Machine

/-! ## Operations, runs among them -/

/-- What can be done to a machine: an action, or a run. -/
inductive Operation where
  | act (a : Action)
  | run (stopped : Progress → Machine → Bool) (start : Nat) (instants : Nat → Nat) (fuel : Nat)

/-- The machine after operations in a row. -/
def operate : Machine → List Operation → Machine
  | m, []                                    => m
  | m, .act a :: r                           => (m.act a).2.operate r
  | m, .run stopped start instants fuel :: r =>
    (m.run stopped start instants fuel).2.2.operate r

/-- The actions that operations in a row amount to. -/
def actionsOf : Machine → List Operation → List Action
  | _, []                                    => []
  | m, .act a :: r                           => a :: (m.act a).2.actionsOf r
  | m, .run stopped start instants fuel :: r =>
    let due := (TimerClock.new m.config.timerPeriod start).schedule instants
    let actions := runActions stopped due fuel .start m
    actions ++ (m.after actions).actionsOf r

theorem operate_eq_after (m : Machine) (operations : List Operation) :
    m.operate operations = m.after (m.actionsOf operations) := by
  induction operations generalizing m with
  | nil => rfl
  | cons o r ih =>
      cases o with
      | act a => exact ih (m.act a).2
      | run stopped start instants fuel =>
          rw [operate, actionsOf, run_eq_runFrom, runFrom_eq_after, ih, after_append]

/-! ## The stream of random bytes -/

/-- Executing an instruction uses a byte of the stream if it asks for one, and leaves the
    stream alone if not. -/
theorem execute_random (m : Machine) (i : Instruction) :
    (m.execute i).2.random = if i.isRandom then m.random.advance else m.random := by
  cases i with
  | ret =>
      simp only [execute]
      split <;> rfl
  | call a =>
      simp only [execute]
      split <;> rfl
  | loadKey x =>
      simp only [execute]
      split <;> rfl
  | _ => rfl

theorem perform_random (m : Machine) (i : Instruction) :
    (m.perform i).2.random = if i.isRandom then m.random.advance else m.random := by
  rw [← execute_random, perform]
  split
  · rename_i h
    rw [h]
    rfl
  · rename_i h
    rw [h]

/-- An action uses a byte of the stream if it completes an instruction that asks for one, and
    any other leaves the stream alone, failures among them. -/
theorem act_random (m : Machine) (a : Action) :
    (m.act a).2.random =
      ⟨m.random.bytes, m.random.position + (m.completes a).toList.countP (·.isRandom)⟩ := by
  cases hs : (m.act a).1 with
  | error halt =>
      have hnone : m.completes a = none := by simp only [completes, hs]
      rw [hnone, act_error hs]
      rfl
  | ok =>
      have hsame : m.completes a = m.executes a := by simp only [completes, hs]
      rw [hsame]
      cases he : m.executes a with
      | none =>
          obtain ⟨keypad, delay, sound, heq⟩ := act_eq_of_executes_none he
          rw [heq]
          rfl
      | some i =>
          rw [act_eq_perform he, perform_random, Option.toList_some, List.countP_singleton]
          cases i.isRandom <;> rfl

theorem after_random (m : Machine) (actions : List Action) :
    (m.after actions).random =
      ⟨m.random.bytes, m.random.position + (m.completed actions).countP (·.isRandom)⟩ := by
  induction actions generalizing m with
  | nil => rfl
  | cons a r ih =>
      rw [after, ih, act_random, completed, List.countP_append, Nat.add_assoc]

/-- The instruction stores the next byte of the stream under its mask, and goes on. -/
theorem perform_random_eq (m : Machine) (x mask : Byte) :
    m.perform (.random x mask) =
      (.ok (), { m with
        registers :=
          { m.registers.set x (m.random.next &&& mask) with pc := offset m.registers.pc 2 }
        random := m.random.advance }) := rfl

/-- With a fixed seed a loaded machine has the stream of that seed, and none of it used. -/
theorem random_of_load {source : RandomSource} {image : List Byte} {keypad : Keypad}
    {config : Config} {m : Machine} {seed : UInt64}
    (h : load source image keypad config = .ok m) (hseed : config.seed = some seed) :
    m.random = ⟨source.seeded seed, 0⟩ := by
  obtain ⟨memory, -, rfl⟩ := eq_of_load h
  rw [hseed]
  rfl

/-- **RANDOM BYTES IN ORDER**: whatever streams a source has, with a fixed seed and whatever
    is done to a loaded machine (actions, and runs however stopped and ticked), at every
    place in the actions that this amounts to, as many bytes of the stream have been used as
    instructions that ask for one have been completed.  Such an instruction always completes:
    it stores the next byte under its mask in its register, and changes beside that register
    only the program counter and, by one, the place in the stream.  And an action that
    completes no such instruction leaves the stream alone. -/
theorem random_bytes_in_order {source : RandomSource} {image : List Byte} {keypad : Keypad}
    {config : Config} {m : Machine} {seed : UInt64}
    (hload : load source image keypad config = .ok m) (hseed : config.seed = some seed)
    (operations : List Operation) :
    let actions := m.actionsOf operations
    m.operate operations = m.after actions ∧
      ∀ before a behind, actions = before ++ a :: behind →
        let now := m.after before
        let used := (m.completed before).countP (·.isRandom)
        let next := (now.act a).2
        now.random = ⟨source.seeded seed, used⟩ ∧
        (∀ x mask, now.executes a = some (.random x mask) →
          let byte := source.seeded seed used &&& mask
          now.completes a = some (.random x mask) ∧
            (∀ y : Byte, next.registers.get y =
              if y.toNat % 16 = x.toNat % 16 then byte else now.registers.get y) ∧
            next = { now with
              registers := { now.registers with
                v := next.registers.v
                pc := offset now.registers.pc 2 }
              random := ⟨source.seeded seed, used + 1⟩ }) ∧
        ((∀ x mask, now.completes a ≠ some (.random x mask)) →
          next.random = now.random) := by
  intro actions
  refine ⟨operate_eq_after m operations, ?_⟩
  intro before a behind _ now used next
  have hnow : now.random = ⟨source.seeded seed, used⟩ := by
    rw [show now.random = _ from after_random m before, random_of_load hload hseed,
      Nat.zero_add]
  refine ⟨hnow, ?_, ?_⟩
  · intro x mask hx byte
    have hact : now.act a = _ := (act_eq_perform hx).trans (perform_random_eq now x mask)
    have hnext : next = _ := congrArg Prod.snd hact
    have hbyte : now.random.next &&& mask = byte := by rw [hnow]; rfl
    rw [hbyte, hnow] at hnext
    refine ⟨by simp only [completes, hact, hx], fun y => ?_, by rw [hnext]; rfl⟩
    rw [hnext]
    show (now.registers.set x byte).get y = _
    simp only [Registers.get_set, slot, Fin.mk.injEq, eq_comm]
  · intro hother
    have hnone : (now.completes a).toList.countP (·.isRandom) = 0 := by
      cases hc : now.completes a with
      | none => rfl
      | some i =>
          cases i with
          | random x mask => exact absurd hc (hother x mask)
          | _ => rfl
    rw [show next.random = _ from act_random now a, hnone, Nat.add_zero]

/-- A run uses the first byte under a mask of zero, a return fails, and the instruction after
    that gets the second byte. -/
theorem random_bytes_in_order_masked :
    let config : Config := { Config.standard with seed := some 7 }
    let operations : List Operation :=
      [.run (fun _ _ => false) 0 (fun _ => 0) 1, .act (.perform .ret),
       .act (.perform (.random 2 0x0F))]
    ∃ m, load (Keystream.source 0) (Program.image [.random 3 0]) .absent config = .ok m ∧
      config.seed = some 7 ∧
      m.actionsOf operations = [.step, .perform .ret, .perform (.random 2 0x0F)] ∧
      m.completed [.step, .perform .ret] = [.random 3 0] ∧
      (m.operate operations).registers.get 2 = Keystream.byteAt 7 1 &&& 0x0F ∧
      (m.operate operations).random = ⟨Keystream.byteAt 7, 2⟩ := by
  intro config operations
  obtain ⟨m, hload, hdue⟩ :=
    exists_load (p := [.random 3 0]) (by decide) (Keystream.source 0) .absent config
  have hfetch : m.fetch = .ok (_, .random 3 0) := hdue.fetch (by decide) (by decide) rfl
  have hstep : m.act .step = m.perform (.random 3 0) :=
    act_eq_perform (by simp only [executes, next?, hfetch])
  obtain ⟨memory, -, hm⟩ := eq_of_load hload
  have hnone : (TimerClock.new m.config.timerPeriod 0).schedule (fun _ => 0)
      Progress.start.steps = 0 := by
    have hperiod : m.config.timerPeriod = 16667000 := by
      rw [hm]
      rfl
    rw [hperiod]
    decide
  have hactions : m.actionsOf operations = [.step, .perform .ret, .perform (.random 2 0x0F)] := by
    rw [act] at hstep
    simp only [operations, actionsOf, runActions, hnone, ticks, hstep]
    rfl
  have hcompleted : m.completed [.step, .perform .ret] = [.random 3 0] := by
    simp only [completed, completes, executes, next?, hfetch, hstep]
    rw [hm]
    rfl
  obtain ⟨heq, hplaces⟩ := random_bytes_in_order hload rfl operations
  obtain ⟨-, hrandom, -⟩ := hplaces [.step, .perform .ret] _ [] hactions
  obtain ⟨-, hbytes, hnext⟩ := hrandom 2 0x0F rfl
  simp only [hcompleted] at hbytes hnext
  refine ⟨m, hload, rfl, hactions, hcompleted, ?_, ?_⟩
  · rw [heq, hactions]
    exact (hbytes 2).trans (if_pos rfl)
  · rw [heq, hactions]
    exact congrArg Machine.random hnext

end Machine

end Chip8
