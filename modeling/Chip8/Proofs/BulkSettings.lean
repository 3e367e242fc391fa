import Chip8.Proofs.Effects
import Chip8.Proofs.Ticks

/-! # Bulk settings — two machines that differ in how many registers a transfer moves

    A setting decides how many registers a transfer moves: all of them, or those up to the one
    that is named.  It decides nothing else, and under the second setting the last register
    names all of them.  So a machine that moves all registers is simulated by one that moves
    those up to the named one, if every transfer is widened to name the last register; and the
    two run alike over a program whose transfers name it already. -/

namespace Chip8

/-- The instruction, with the last register in place of the one that is named if it is a
    transfer. -/
def Instruction.widened : Instruction → Instruction
  | .storeRegisters _ => .storeRegisters 0xF
  | .loadRegisters _  => .loadRegisters 0xF
  | i                 => i

/-- The action, with the instruction widened if one is given. -/
def Action.widened : Action → Action
  | .perform i => .perform i.widened
  | a          => a

/-- Widening changes no instruction but a transfer that names another register than the
    last. -/
theorem Instruction.widened_eq_self {i : Instruction}
    (h : ∀ x, i = .storeRegisters x ∨ i = .loadRegisters x → x = 0xF) : i.widened = i := by
  cases i with
  | storeRegisters x =>
      obtain rfl := h x (.inl rfl)
      rfl
  | loadRegisters x =>
      obtain rfl := h x (.inr rfl)
      rfl
  | _ => rfl

theorem Action.widened_eq_tick_iff {a : Action} : a.widened = .tick ↔ a = .tick := by
  cases a with
  | perform i =>
      constructor
      · intro h
        cases h
      · intro h
        cases h
  | _ => exact Iff.rfl

namespace Machine

/-- The machine with another setting for transfers. -/
def withBulk (m : Machine) (bulk : BulkTransfer) : Machine :=
  { m with config := { m.config with bulk } }

/-- The first machine moves all registers and the second those up to the named one, and they
    differ in nothing else. -/
structure SettingsApart (m m' : Machine) : Prop where
  bulk : m.config.bulk = .allRegisters
  others : m' = m.withBulk .throughX

/-- No step in a row of actions executes an instruction that widening changes. -/
def StepsWide : Machine → List Action → Prop
  | _, []     => True
  | m, a :: r =>
    (a = .step → ∀ i, m.next? = some i → i.widened = i) ∧ StepsWide (m.act a).2 r

/-- Every transfer that is executed in a row of actions names the last register. -/
def NamesLast : Machine → List Action → Prop
  | _, []     => True
  | m, a :: r =>
    (∀ x, m.executes a = some (.storeRegisters x) ∨ m.executes a = some (.loadRegisters x) →
      x = 0xF) ∧ NamesLast (m.act a).2 r

namespace SettingsApart

/-! ## One action -/

section Action

variable {m m' : Machine} (h : m.SettingsApart m')
include h

/-- A transfer moves all registers under one setting, and so it does under the other when it
    is widened; no other instruction looks at the setting. -/
theorem execute (i : Instruction) :
    m'.execute i.widened = ((m.execute i).1, (m.execute i).2.withBulk .throughX) := by
  obtain ⟨hbulk, rfl⟩ := h
  cases i with
  | storeRegisters x =>
      simp only [Instruction.widened, Machine.execute, hbulk]
      rfl
  | loadRegisters x =>
      simp only [Instruction.widened, Machine.execute, hbulk]
      rfl
  | ret =>
      simp only [Instruction.widened, Machine.execute, withBulk]
      cases m.registers.pop? <;> rfl
  | call a =>
      simp only [Instruction.widened, Machine.execute, withBulk]
      cases m.registers.push? (offset m.registers.pc 2) <;> rfl
  | loadKey x =>
      simp only [Instruction.widened, Machine.execute, withBulk]
      rcases m.keypad.await with ⟨answer, keypad⟩
      cases answer <;> rfl
  | _ => rfl

theorem perform (i : Instruction) :
    m'.perform i.widened = ((m.perform i).1, (m.perform i).2.withBulk .throughX) := by
  have hpc : m'.registers.pc = m.registers.pc := by
    rw [h.others]
    rfl
  rw [Machine.perform, h.execute, Machine.perform, hpc]
  rcases m.execute i with ⟨result, after⟩
  cases result <;> rfl

/-- Stepping is alike if the instruction that is fetched needs no widening. -/
theorem step (hstep : ∀ i, m.next? = some i → i.widened = i) :
    m'.step = (m.step.1, m.step.2.withBulk .throughX) := by
  have hfetch : m'.fetch = m.fetch := by
    rw [h.others]
    rfl
  rw [Machine.step, hfetch, Machine.step]
  cases hf : m.fetch with
  | error f => rw [h.others]
  | ok found =>
      have hnext : m.next? = some found.2 := by rw [next?, hf]
      have hperform := h.perform found.2
      rwa [hstep found.2 hnext] at hperform

theorem act_eq {a : Action} (hstep : a = .step → ∀ i, m.next? = some i → i.widened = i) :
    m'.act a.widened = ((m.act a).1, (m.act a).2.withBulk .throughX) := by
  cases a with
  | step => exact h.step (hstep rfl)
  | perform i => exact h.perform i
  | tick =>
      rw [h.others]
      rfl
  | handle e =>
      rw [h.others]
      rfl

end Action

/-! ## Actions in a row -/

/-- The machines go on side by side, if the given instructions are widened for the second
    and the fetched ones need no widening. -/
theorem row {m m' : Machine} (h : m.SettingsApart m') {actions : List Action}
    (hsteps : m.StepsWide actions) :
    m'.outcomes (actions.map Action.widened) = m.outcomes actions ∧
      (m.after actions).SettingsApart (m'.after (actions.map Action.widened)) := by
  induction actions generalizing m m' with
  | nil => exact ⟨rfl, h⟩
  | cons a r ih =>
      obtain ⟨hstep, hrest⟩ := hsteps
      have hact := h.act_eq hstep
      have hnext : (m.act a).2.SettingsApart (m'.act a.widened).2 := by
        refine ⟨?_, ?_⟩
        · rw [config_act]
          exact h.bulk
        · rw [hact]
      obtain ⟨houtcomes, hafter⟩ := ih hnext hrest
      refine ⟨?_, hafter⟩
      rw [List.map_cons, outcomes, outcomes, houtcomes, hact]
      simp only [Action.widened_eq_tick_iff]

end SettingsApart

/-- Actions without a step meet no fetched instruction. -/
theorem stepsWide_of_not_mem {m : Machine} {actions : List Action} (h : .step ∉ actions) :
    m.StepsWide actions := by
  induction actions generalizing m with
  | nil => trivial
  | cons a r ih =>
      rw [List.mem_cons, not_or] at h
      exact ⟨fun ha => absurd ha.symm h.1, ih h.2⟩

/-- Where every executed transfer names the last register, there is nothing to widen. -/
theorem NamesLast.wide {m : Machine} {actions : List Action} (h : m.NamesLast actions) :
    m.StepsWide actions ∧ actions.map Action.widened = actions := by
  induction actions generalizing m with
  | nil => exact ⟨trivial, rfl⟩
  | cons a r ih =>
      obtain ⟨hlast, hrest⟩ := h
      obtain ⟨hsteps, hmap⟩ := ih hrest
      have hwide : ∀ i, m.executes a = some i → i.widened = i := by
        intro i hi
        refine Instruction.widened_eq_self ?_
        rintro x (rfl | rfl)
        · exact hlast x (.inl hi)
        · exact hlast x (.inr hi)
      refine ⟨⟨?_, hsteps⟩, ?_⟩
      · rintro rfl i hi
        exact hwide i hi
      · rw [List.map_cons, hmap]
        cases a with
        | perform i =>
            show Action.perform i.widened :: r = Action.perform i :: r
            rw [hwide i rfl]
        | _ => rfl

/-- Two such machines are had by loading one program under the two settings. -/
theorem exists_settingsApart {source : RandomSource} {image : List Byte} {keypad : Keypad}
    {config : Config} {m : Machine} (hload : load source image keypad config = .ok m)
    (hbulk : config.bulk = .allRegisters) :
    ∃ m', load source image keypad { config with bulk := .throughX } = .ok m' ∧
      m.SettingsApart m' := by
  obtain ⟨memory, hmemory, rfl⟩ := eq_of_load hload
  refine ⟨_, ?_, hbulk, rfl⟩
  rw [load, hmemory]
  rfl

/-- **SETTINGS SIMULATE EACH OTHER**: of two machines that differ in the setting for transfers
    only, the one that moves all registers goes through given instructions and ticks, and
    whatever is done to its keypad, as the other one does with every transfer widened to name
    the last register: with the same outcomes and with the same difference left.  When they
    step, each over what it fetches, they go on alike as long as every transfer that is
    executed names the last register. -/
theorem settings_simulate {m m' : Machine} (h : m.SettingsApart m') (actions : List Action) :
    (.step ∉ actions →
      m'.outcomes (actions.map Action.widened) = m.outcomes actions ∧
        (m.after actions).SettingsApart (m'.after (actions.map Action.widened))) ∧
    (m.NamesLast actions →
      m'.outcomes actions = m.outcomes actions ∧
        (m.after actions).SettingsApart (m'.after actions)) := by
  constructor
  · intro hgiven
    exact h.row (stepsWide_of_not_mem hgiven)
  · intro hlast
    obtain ⟨hsteps, hmap⟩ := hlast.wide
    have hrow := h.row hsteps
    rwa [hmap] at hrow

/-- The registers up to `V3` are stored and `V0` is loaded back, each widened for the second
    machine; and a program that stores all registers and fails at a return is stepped by
    both. -/
theorem settings_simulate_loaded :
    let p : Program := [.storeRegisters 0xF, .ret]
    let given : List Action :=
      [.perform (.storeRegisters 3), .tick, .perform (.loadRegisters 0x10)]
    let widened : List Action :=
      [.perform (.storeRegisters 0xF), .tick, .perform (.loadRegisters 0xF)]
    let stepped : List Action := [.step, .tick, .step]
    let source := Keystream.source 0
    ∃ m m' : Machine, load source p.image .absent .standard = .ok m ∧
      load source p.image .absent { Config.standard with bulk := .throughX } = .ok m' ∧
      m.SettingsApart m' ∧ .step ∉ given ∧ m.NamesLast stepped ∧
      m'.outcomes widened = [.ok (), .ok ()] ∧ (m.after given).SettingsApart (m'.after widened) ∧
      m'.outcomes stepped = [.ok (), .error (.fault (.stackUnderflow 0x202))] ∧
      (m.after stepped).SettingsApart (m'.after stepped) := by
  intro p given widened stepped source
  obtain ⟨m, hload, hfirst⟩ := exists_load (p := p) (by decide) source .absent .standard
  obtain ⟨m', hload', hapart⟩ := exists_settingsApart hload rfl
  obtain ⟨memory, -, hm⟩ := eq_of_load hload
  -- the registers go to the first cells of the font
  have hcells : ∀ c ∈ Memory.cellsFrom 0 16, ¬ (0x202 ≤ c.val ∧ c.val < 0x204) :=
    List.forall_mem_map.mpr (by decide)
  have hspares : ∀ c ∈ m.written (.storeRegisters 0xF), ¬ (0x202 ≤ c.val ∧ c.val < 0x204) := by
    rw [hm]
    exact hcells
  generalize hl : (m.perform (.storeRegisters 0xF)).2 = later
  have hsecond : Due 0x202 [.ret] later :=
    hfirst.perform (by decide) (by decide) rfl hspares (by rw [← hl]; rfl)
  have hstep : m.step = (.ok (), later) := by
    rw [hfirst.step (by decide) (by decide) rfl, ← hl]
    rfl
  have hticked : Due 0x202 [.ret] later.tick := ⟨hsecond.pc, hsecond.code⟩
  have hfails : later.tick.step.1 = .error (.fault (.stackUnderflow 0x202)) := by
    rw [hticked.step (by decide) (by decide) rfl, ← hl, hm]
    rfl
  have hlast : m.NamesLast stepped := by
    refine ⟨?_, ?_, ?_, trivial⟩
    · intro x hx
      rw [executes, next?, hfirst.fetch (by decide) (by decide) rfl] at hx
      rcases hx with hx | hx
      · cases hx
        rfl
      · cases hx
    · intro x hx
      rcases hx with hx | hx <;> cases hx
    · intro x hx
      rw [act, hstep, act, executes, next?, hticked.fetch (by decide) (by decide) rfl] at hx
      rcases hx with hx | hx <;> cases hx
  have hresults : m.outcomes stepped = [.ok (), .error (.fault (.stackUnderflow 0x202))] := by
    show [m.step.1, m.step.2.tick.step.1] = _
    rw [hstep, hfails]
  have hgiven : Action.step ∉ given := by decide
  obtain ⟨houtcomes, hafter⟩ := (settings_simulate hapart given).1 hgiven
  obtain ⟨houtcomes', hafter'⟩ := (settings_simulate hapart stepped).2 hlast
  exact ⟨m, m', hload, hload', hapart, hgiven, hlast, houtcomes, hafter, houtcomes'.trans hresults,
    hafter'⟩

end Machine

end Chip8
