import Chip8.Machine.Execute
import Chip8.Shell.Keystream

/-! # Atomicity — what does not complete changes nothing

    Three parts of a machine can refuse what an instruction asks of them: the full
    stack a push, the empty stack a pop, and the keypad a wait.  A refusal leaves
    its part alone, and no instruction changes another part before it asks.  So
    when `Machine.perform` or `Machine.step` does not complete, the machine
    afterwards is the machine before, from the registers to the configuration. -/

namespace Chip8

/-- A wait that no press ends leaves the keypad as it was, with all events still
    to come. -/
theorem Keypad.await_unchanged {k k' : Keypad} {answer : WaitAnswer}
    (h : k.await = (answer, k')) (hn : ∀ code, answer ≠ .pressed code) : k' = k := by
  cases k with
  | absent => exact (Prod.mk.inj h).2.symm
  | shared pad coming =>
      simp only [Keypad.await] at h
      cases hw : pad.wait coming with
      | pressed code =>
          rw [hw] at h
          exact absurd (Prod.mk.inj h).1.symm (hn code)
      | closed =>
          rw [hw] at h
          exact (Prod.mk.inj h).2.symm
      | silent =>
          rw [hw] at h
          exact (Prod.mk.inj h).2.symm
  | script down presses =>
      cases presses with
      | nil => exact (Prod.mk.inj h).2.symm
      | cons code r => exact absurd (Prod.mk.inj h).1.symm (hn code)

namespace Machine

/-- The change of an instruction that does not complete is no change. -/
theorem execute_error {m after : Machine} {i : Instruction} {halt : Halt}
    (h : m.execute i = (.error halt, after)) : after = m := by
  cases i with
  | routine a => exact (Prod.mk.inj h).2.symm
  | ret =>
      simp only [execute] at h
      cases hp : m.registers.pop? with
      | none =>
          rw [hp] at h
          exact (Prod.mk.inj h).2.symm
      | some popped =>
          rw [hp] at h
          cases h
  | call a =>
      simp only [execute] at h
      cases hp : m.registers.push? (offset m.registers.pc 2) with
      | none =>
          rw [hp] at h
          exact (Prod.mk.inj h).2.symm
      | some pushed =>
          rw [hp] at h
          cases h
  | loadKey x =>
      -- the keypad is put back into the machine, whatever the wait answered
      simp only [execute] at h
      rcases hk : m.keypad.await with ⟨answer, keypad⟩
      rw [hk] at h
      cases answer with
      | pressed code => cases h
      | closed =>
          have hsame : keypad = m.keypad := Keypad.await_unchanged hk (fun _ => nofun)
          rw [← (Prod.mk.inj h).2, hsame]
      | silent =>
          have hsame : keypad = m.keypad := Keypad.await_unchanged hk (fun _ => nofun)
          rw [← (Prod.mk.inj h).2, hsame]
  | _ => cases h

/-- An instruction that does not complete leaves the machine as it was. -/
theorem perform_error {m : Machine} {i : Instruction} {halt : Halt}
    (h : (m.perform i).1 = .error halt) : (m.perform i).2 = m := by
  rcases he : m.execute i with ⟨result, after⟩
  cases result with
  | ok flow =>
      rw [show m.perform i = (.ok (), after.goTo (flow.target m.registers.pc)) by
        simp only [perform, he]] at h
      cases h
  | error halt' =>
      rw [show m.perform i = (.error halt', after) by simp only [perform, he]]
      exact execute_error he

/-- A step that does not complete leaves the machine as it was, whether it fails to
    fetch or to execute. -/
theorem step_error {m : Machine} {halt : Halt}
    (h : (m.step).1 = .error halt) : (m.step).2 = m := by
  cases hf : m.fetch with
  | error f =>
      rw [show m.step = (.error (.fault f), m) by simp only [step, hf]]
  | ok found =>
      obtain ⟨w, i⟩ := found
      have hs : m.step = m.perform i := by simp only [step, hf]
      rw [hs] at h ⊢
      exact perform_error h

/-- **FAILURE ATOMICITY**: in every state of the machine, with every keypad and
    configuration, and for every instruction, in range or not, a step or an
    instruction that does not complete changes nothing. -/
theorem failure_atomic (m : Machine) :
    (∀ halt, (m.step).1 = .error halt → (m.step).2 = m) ∧
    (∀ i halt, (m.perform i).1 = .error halt → (m.perform i).2 = m) :=
  ⟨fun _ h => step_error h, fun _ _ h => perform_error h⟩

/-- A machine that has loaded nothing. -/
def idle (keypad : Keypad) : Machine :=
  ⟨.initial, .blank, .blank, keypad, (Keystream.source 0).stream none, .standard⟩

theorem load_nil (keypad : Keypad) :
    load (Keystream.source 0) [] keypad .standard = .ok (idle keypad) := by
  have hmemory : Memory.load [] = .ok .blank :=
    Memory.load_eq_ok_iff.mpr ⟨Nat.zero_le _, by rw [putFrom]⟩
  rw [load, hmemory]
  rfl

/-- A step at an odd address, and a wait at a keypad that holds two keys and has no
    press to come. -/
theorem idle_failures_unchanged :
    (((idle .absent).goTo 0x201).step.1 = .error (.fault (.misalignedProgramCounter 0x201)) ∧
      ((idle .absent).goTo 0x201).step.2 = (idle .absent).goTo 0x201) ∧
    (((idle (.script 0x8001 [])).perform (.loadKey 3)).1 = .error (.fault (.inputClosed 0x200)) ∧
      ((idle (.script 0x8001 [])).perform (.loadKey 3)).2 = idle (.script 0x8001 [])) := by
  have hodd : ((idle .absent).goTo 0x201).step.1 =
      .error (.fault (.misalignedProgramCounter 0x201)) := rfl
  have hclosed : ((idle (.script 0x8001 [])).perform (.loadKey 3)).1 =
      .error (.fault (.inputClosed 0x200)) := rfl
  exact ⟨⟨hodd, (failure_atomic _).1 _ hodd⟩, hclosed, (failure_atomic _).2 _ _ hclosed⟩

end Machine

end Chip8
