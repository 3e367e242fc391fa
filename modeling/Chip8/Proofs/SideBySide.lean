import Chip8.Proofs.Reachable

/-! # Side by side — two machines that are handled alike

    Two machines may differ in a part that no outcome tells.  To see that they never will be
    told apart it is enough to look at single instructions: a relation of machines with the
    same program counter and the same memory that every instruction keeps, with the same
    result on both, and that moving the program counter, a tick and the keypad keep, is kept
    by whatever is done to both machines, and every action has the same outcome on both. -/

namespace Chip8.Machine

/-- The results are the same and the machines are related. -/
def SameAnswer (R : Machine → Machine → Prop) {α : Type} (x y : α × Machine) : Prop :=
  x.1 = y.1 ∧ R x.2 y.2

/-- Machines so related fetch from the same place, and each single change keeps them so. -/
structure SideBySide (R : Machine → Machine → Prop) : Prop where
  pc : ∀ {m m' : Machine}, R m m' → m.registers.pc = m'.registers.pc
  memory : ∀ {m m' : Machine}, R m m' → m.memory = m'.memory
  execute : ∀ {m m' : Machine}, R m m' → ∀ i, SameAnswer R (m.execute i) (m'.execute i)
  goTo : ∀ {m m' : Machine}, R m m' → ∀ pc, R (m.goTo pc) (m'.goTo pc)
  tick : ∀ {m m' : Machine}, R m m' → R m.tick m'.tick
  handle : ∀ {m m' : Machine}, R m m' → ∀ e,
    R { m with keypad := m.keypad.apply e } { m' with keypad := m'.keypad.apply e }

namespace SideBySide

variable {R : Machine → Machine → Prop} (hR : SideBySide R) {m m' : Machine} (h : R m m')
include hR h

theorem fetch_eq : m.fetch = m'.fetch := by
  rw [Machine.fetch, Machine.fetch, hR.pc h, hR.memory h]

theorem executes_eq (a : Action) : m.executes a = m'.executes a := by
  cases a with
  | step =>
      show m.next? = m'.next?
      rw [next?, next?, hR.fetch_eq h]
  | _ => rfl

theorem perform (i : Instruction) : SameAnswer R (m.perform i) (m'.perform i) := by
  obtain ⟨hresult, hafter⟩ := hR.execute h i
  rcases he : m.execute i with ⟨result, after⟩
  rcases he' : m'.execute i with ⟨result', after'⟩
  rw [he, he'] at hresult hafter
  obtain rfl : result = result' := hresult
  simp only [Machine.perform, he, he', hR.pc h]
  cases result with
  | ok flow => exact ⟨rfl, hR.goTo hafter (flow.target m'.registers.pc)⟩
  | error halt => exact ⟨rfl, hafter⟩

theorem step : SameAnswer R m.step m'.step := by
  rw [Machine.step, Machine.step, ← hR.fetch_eq h]
  cases m.fetch with
  | error f => exact ⟨rfl, h⟩
  | ok found => exact hR.perform h found.2

theorem act (a : Action) : SameAnswer R (m.act a) (m'.act a) := by
  cases a with
  | step => exact hR.step h
  | perform i => exact hR.perform h i
  | tick => exact ⟨rfl, hR.tick h⟩
  | handle e => exact ⟨rfl, hR.handle h e⟩

omit h in
/-- Actions in a row, the same for both machines, keep them related. -/
theorem after {m m' : Machine} (h : R m m') (actions : List Action) :
    R (m.after actions) (m'.after actions) := by
  induction actions generalizing m m' with
  | nil => exact h
  | cons a r ih => exact ih (hR.act h a).2

end SideBySide

end Chip8.Machine
