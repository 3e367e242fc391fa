import Chip8.Proofs.Bracketing
import Chip8.Proofs.Diagnosis
import Mathlib.Data.List.Induction

/-! # Alignment — only a branch leads to an odd address

    A step fetches at an even address alone, so a call that is stepped pushes an even
    address.  Going on by one word or two, or back to such an address, is even again.
    What is left are the instructions that name their target: where one of them names
    an odd one, the next step is refused, and so is every step after it.  Hence an odd
    program counter always tells which branch has completed last. -/

namespace Chip8

/-- Whether an action leaves it to the program which instruction is executed. -/
def Action.stepped : Action → Bool
  | .perform _ => false
  | _          => true

/-! ## Parity of addresses -/

theorem wrap_mod_two (a : Word) : (wrap a).toNat % 2 = a.toNat % 2 := by
  rw [toNat_wrap]
  omega

theorem offset_mod_two (a n : Word) :
    (offset a n).toNat % 2 = (a.toNat + n.toNat) % 2 := by
  rw [toNat_offset]
  omega

/-- Every return address on the stack is even. -/
def Registers.EvenStack (r : Registers) : Prop := ∀ a ∈ r.stack, a.toNat % 2 = 0

theorem Registers.evenStack_initial : Registers.initial.EvenStack := List.forall_mem_nil _

namespace Machine

/-! ## Where instructions go on -/

/-- The target that an instruction names, if it names one. -/
def branch? (m : Machine) : Instruction → Option Word
  | .jump a     => some a
  | .call a     => some a
  | .jumpPlus a => some (a + (m.registers.get 0).setWidth 16)
  | _           => none

/-- Where an instruction that completes leaves the program counter. -/
inductive GoesOn (m : Machine) (i : Instruction) (pc : Word) : Prop where
  | branch {target : Word} (named : m.branch? i = some target) (reached : pc = wrap target) :
      GoesOn m i pc
  | back {a : Word} (unnamed : m.branch? i = none) (stacked : a ∈ m.registers.stack)
      (reached : pc = wrap a) : GoesOn m i pc
  | ahead {n : Word} (unnamed : m.branch? i = none) (words : n.toNat % 2 = 0)
      (reached : pc = offset m.registers.pc n) : GoesOn m i pc

/-- An instruction that completes goes on at the target that it names, at a return
    address, or one or two words further. -/
theorem perform_goesOn {m after : Machine} {i : Instruction}
    (h : m.perform i = (.ok (), after)) : m.GoesOn i after.registers.pc := by
  cases i with
  | jump a =>
      cases h
      exact .branch rfl rfl
  | jumpPlus a =>
      cases h
      exact .branch rfl rfl
  | call a =>
      cases perform_moved h with
      | call _ _ entered => exact .branch rfl entered
      | other hcall _ _ => cases hcall
  | ret =>
      cases perform_moved h with
      | ret popped returned => exact .back rfl (popped ▸ List.mem_cons_self) returned
      | other _ hreturn _ => cases hreturn
  | skip t =>
      have hpc : after.registers.pc = (Flow.skipIf (m.holds t)).target m.registers.pc := by
        cases h
        rfl
      rw [hpc]
      cases m.holds t with
      | true => exact .ahead (n := 4) rfl rfl rfl
      | false => exact .ahead (n := 2) rfl rfl rfl
  | _ => exact .ahead rfl rfl (perform_straight rfl h)

/-! ## One action -/

/-- A step fetches at an even address alone. -/
theorem pc_even_of_next? {m : Machine} {i : Instruction} (h : m.next? = some i) :
    m.registers.pc.toNat % 2 = 0 := by
  by_cases hodd : m.registers.pc.toNat % 2 ≠ 0
  · simp only [next?, fetch, if_pos hodd] at h
    cases h
  · omega

/-- What is completed without being given from outside is stepped, at an even
    address. -/
theorem stepped_completes {m : Machine} {a : Action} {i : Instruction}
    (ha : a.stepped = true) (h : m.completes a = some i) :
    a = .step ∧ m.registers.pc.toNat % 2 = 0 ∧ m.perform i = (.ok (), (m.act a).2) := by
  obtain ⟨hexecutes, hperform⟩ := perform_of_completes h
  cases a with
  | step => exact ⟨rfl, pc_even_of_next? hexecutes, hperform⟩
  | perform j => cases ha
  | tick => cases hexecutes
  | handle e => cases hexecutes

/-- An action that leaves the choice to the program keeps the return addresses even. -/
theorem evenStack_act {m : Machine} {a : Action} (hm : m.registers.EvenStack)
    (ha : a.stepped = true) : (m.act a).2.registers.EvenStack := by
  intro b hb
  cases hc : m.completes a with
  | none =>
      rw [(act_of_completes_none hc).2] at hb
      exact hm b hb
  | some i =>
      obtain ⟨-, heven, hperform⟩ := stepped_completes ha hc
      cases perform_moved hperform with
      | call _ pushed _ =>
          rw [pushed] at hb
          rcases List.mem_cons.mp hb with rfl | hold
          · rw [offset_mod_two, Nat.add_mod, heven]
            rfl
          · exact hm b hold
      | ret popped _ =>
          refine hm b ?_
          rw [popped]
          exact List.mem_cons_of_mem _ hb
      | other _ _ kept =>
          rw [kept] at hb
          exact hm b hb

/-- After a step that completes, the program counter is odd exactly if the instruction
    names an odd target. -/
theorem pc_act_odd_iff {m : Machine} {a : Action} {i : Instruction}
    (hm : m.registers.EvenStack) (ha : a.stepped = true) (h : m.completes a = some i) :
    (m.act a).2.registers.pc.toNat % 2 = 1 ↔
      ∃ target, m.branch? i = some target ∧ target.toNat % 2 = 1 := by
  obtain ⟨-, heven, hperform⟩ := stepped_completes ha h
  constructor
  · intro hodd
    cases perform_goesOn hperform with
    | @branch target named reached =>
        rw [reached, wrap_mod_two] at hodd
        exact ⟨target, named, hodd⟩
    | @back b unnamed stacked reached =>
        rw [reached, wrap_mod_two, hm b stacked] at hodd
        cases hodd
    | ahead unnamed words reached =>
        rw [reached, offset_mod_two] at hodd
        omega
  · rintro ⟨target, hnamed, hodd⟩
    cases perform_goesOn hperform with
    | branch named reached =>
        have htarget := Option.some.inj (named.symm.trans hnamed)
        rw [reached, wrap_mod_two, htarget]
        exact hodd
    | back unnamed _ _ =>
        rw [unnamed] at hnamed
        cases hnamed
    | ahead unnamed _ _ =>
        rw [unnamed] at hnamed
        cases hnamed

/-! ## Actions in a row -/

/-- Among actions in a row, the last step that completes is a branch to `target`. -/
def LastBranch (m : Machine) (actions : List Action) (target : Word) : Prop :=
  ∃ earlier later i, actions = earlier ++ .step :: later ∧
    (m.after earlier).completes .step = some i ∧
    (m.after earlier).branch? i = some target ∧
    ((m.after earlier).act .step).2.completed later = []

theorem evenStack_after {m : Machine} (hm : m.registers.EvenStack) {actions : List Action}
    (h : ∀ a ∈ actions, a.stepped = true) : (m.after actions).registers.EvenStack := by
  induction actions generalizing m with
  | nil => exact hm
  | cons a r ih =>
      obtain ⟨ha, hr⟩ := List.forall_mem_cons.mp h
      exact ih (evenStack_act hm ha) hr

/-- At an odd address nothing completes any more. -/
theorem completed_of_odd {m : Machine} (hodd : m.registers.pc.toNat % 2 = 1)
    {actions : List Action} (h : ∀ a ∈ actions, a.stepped = true) :
    m.completed actions = [] := by
  induction actions generalizing m with
  | nil => rfl
  | cons a r ih =>
      obtain ⟨ha, hr⟩ := List.forall_mem_cons.mp h
      have hnone : m.completes a = none := by
        cases hc : m.completes a with
        | none => rfl
        | some i =>
            obtain ⟨-, heven, -⟩ := stepped_completes ha hc
            omega
      have hpc : (m.act a).2.registers.pc.toNat % 2 = 1 := by
        rw [(act_of_completes_none hnone).1]
        exact hodd
      rw [completed, hnone, ih hpc hr]
      rfl

/-- Behind an odd program counter stands a branch to an odd target, and behind that
    nothing that completed. -/
theorem lastBranch_of_odd {m : Machine} (hm : m.registers.EvenStack)
    (heven : m.registers.pc.toNat % 2 = 0) {actions : List Action}
    (h : ∀ a ∈ actions, a.stepped = true)
    (hodd : (m.after actions).registers.pc.toNat % 2 = 1) :
    ∃ target, m.LastBranch actions target ∧ target.toNat % 2 = 1 := by
  -- from the latest action back to the last one that completed an instruction
  induction actions using List.reverseRecOn with
  | nil =>
      rw [after] at hodd
      omega
  | append_singleton r a ih =>
      obtain ⟨hr, hlast⟩ := List.forall_mem_append.mp h
      have ha : a.stepped = true := hlast a (List.mem_singleton.mpr rfl)
      rw [after_append, after, after] at hodd
      cases hc : (m.after r).completes a with
      | none =>
          rw [(act_of_completes_none hc).1] at hodd
          obtain ⟨target, ⟨earlier, later, i, hsplit, hstep, hnamed, hquiet⟩, htarget⟩ :=
            ih hr hodd
          refine ⟨target, ⟨earlier, later ++ [a], i, ?_, hstep, hnamed, ?_⟩, htarget⟩
          · rw [hsplit, List.append_assoc, List.cons_append]
          · have hhere : ((m.after earlier).act .step).2.after later = m.after r := by
              rw [hsplit, after_append]
              rfl
            rw [completed_append, hquiet, hhere, completed, hc]
            rfl
      | some i =>
          obtain ⟨rfl, -, -⟩ := stepped_completes ha hc
          obtain ⟨target, hnamed, htarget⟩ :=
            (pc_act_odd_iff (evenStack_after hm hr) ha hc).mp hodd
          exact ⟨target, ⟨r, [], i, rfl, hc, hnamed, rfl⟩, htarget⟩

/-- The program counter stands at the target of the branch that completed last. -/
theorem LastBranch.pc_eq {m : Machine} {actions : List Action} {target : Word}
    (h : m.LastBranch actions target) : (m.after actions).registers.pc = wrap target := by
  obtain ⟨earlier, later, i, rfl, hstep, hnamed, hquiet⟩ := h
  rw [after_append, after, pc_after_of_completed_nil hquiet]
  cases perform_goesOn (perform_of_completes hstep).2 with
  | branch named reached =>
      rw [reached, Option.some.inj (named.symm.trans hnamed)]
  | back unnamed _ _ =>
      rw [unnamed] at hnamed
      cases hnamed
  | ahead unnamed _ _ =>
      rw [unnamed] at hnamed
      cases hnamed

/-- At an odd address a step is refused, at once and after whatever is stepped in
    between. -/
theorem refused_of_odd {m : Machine} (hodd : m.registers.pc.toNat % 2 = 1)
    {later : List Action} (h : ∀ a ∈ later, a.stepped = true) :
    ((m.after later).step).1 =
      .error (.fault (.misalignedProgramCounter m.registers.pc)) := by
  have hpc : (m.after later).registers.pc = m.registers.pc :=
    pc_after_of_completed_nil (completed_of_odd hodd h)
  rw [← hpc] at hodd ⊢
  exact step_of_odd hodd

/-- After a step that named no target, the next one is not refused as misaligned. -/
theorem not_refused_of_unnamed {m : Machine} (hreach : m.Reachable)
    (hm : m.registers.EvenStack) {i : Instruction} (hstep : m.completes .step = some i)
    (hunnamed : m.branch? i = none) {quiet : List Action}
    (hquiet : (m.act .step).2.completed quiet = []) (address : Word) :
    (((m.act .step).2.after quiet).step).1 ≠
      .error (.fault (.misalignedProgramCounter address)) := by
  intro hrefused
  have hlater : ((m.act .step).2.after quiet).Reachable := (hreach.acted .step).after quiet
  have hodd : (m.act .step).2.registers.pc.toNat % 2 = 1 := by
    rw [← pc_after_of_completed_nil hquiet]
    cases haltsWith_of_step hlater.bounded.depth hrefused with
    | misaligned odd => exact odd
  obtain ⟨target, hnamed, -⟩ := (pc_act_odd_iff hm rfl hstep).mp hodd
  rw [hunnamed] at hnamed
  cases hnamed

/-- **ALIGNMENT**: however a loaded program is stepped, ticked and fed with keys, all its
    return addresses are even.  The program counter is odd exactly if the last step that
    completed is a jump or a call whose target is odd; every later step is then refused
    as misaligned.  No step is refused so after one that named no target: a return, a
    skip, or going on at the next word. -/
theorem stepped_alignment {source : RandomSource} {image : List Byte} {keypad : Keypad}
    {config : Config} {m : Machine} (hload : load source image keypad config = .ok m)
    {actions : List Action} (h : ∀ a ∈ actions, a.stepped = true) :
    let now := m.after actions
    (∀ a ∈ now.registers.stack, a.toNat % 2 = 0) ∧
    (now.registers.pc.toNat % 2 = 1 ↔
      ∃ target, m.LastBranch actions target ∧ target.toNat % 2 = 1) ∧
    (now.registers.pc.toNat % 2 = 1 → ∀ later : List Action, (∀ a ∈ later, a.stepped = true) →
      ((now.after later).step).1 =
        .error (.fault (.misalignedProgramCounter now.registers.pc))) ∧
    (∀ i, now.completes .step = some i → now.branch? i = none →
      ∀ quiet : List Action, (now.act .step).2.completed quiet = [] → ∀ address,
        (((now.act .step).2.after quiet).step).1 ≠
          .error (.fault (.misalignedProgramCounter address))) := by
  intro now
  obtain ⟨memory, -, hm⟩ := eq_of_load hload
  have hstack : m.registers.EvenStack := by
    rw [hm]
    exact Registers.evenStack_initial
  have hstart : m.registers.pc.toNat % 2 = 0 := by
    rw [hm]
    exact (by decide : Registers.initial.pc.toNat % 2 = 0)
  have hnow : now.registers.EvenStack := evenStack_after hstack h
  refine ⟨hnow, ⟨lastBranch_of_odd hstack hstart h, ?_⟩, ?_, ?_⟩
  · rintro ⟨target, hlast, hodd⟩
    rw [hlast.pc_eq, wrap_mod_two]
    exact hodd
  · intro hodd later hlater
    exact refused_of_odd hodd hlater
  · intro i hstep hunnamed quiet hquiet address
    have hreach : now.Reachable := (Reachable.loaded hload).after actions
    exact not_refused_of_unnamed hreach hnow hstep hunnamed hquiet address

/-- A call of an odd address after a tick: the return address is even, and the step that
    follows another tick is refused. -/
theorem stepped_alignment_call :
    ∃ m, load (Keystream.source 0) (Program.image [.call 0x205]) .absent .standard = .ok m ∧
      (∀ a ∈ [Action.tick, .step], a.stepped = true) ∧
      (m.after [.tick, .step]).registers.pc.toNat = 0x205 ∧
      (m.after [.tick, .step]).registers.stack = [0x202] ∧
      (∃ target, m.LastBranch [.tick, .step] target ∧ target.toNat % 2 = 1) ∧
      ((m.after [.tick, .step]).tick.step).1 =
        .error (.fault (.misalignedProgramCounter (m.after [.tick, .step]).registers.pc)) := by
  obtain ⟨m, hload, hdue⟩ :=
    exists_load (p := [.call 0x205]) (by decide) (Keystream.source 0) .absent .standard
  have hstep : m.tick.step = m.tick.perform (.call 0x205) :=
    Due.step ⟨hdue.pc, hdue.code⟩ (by decide) (by decide) rfl
  obtain ⟨memory, -, hm⟩ := eq_of_load hload
  have hnow : m.after [.tick, .step] = (m.tick.perform (.call 0x205)).2 := by
    rw [← hstep]
    rfl
  have hpc : (m.after [.tick, .step]).registers.pc.toNat = 0x205 := by
    rw [hnow, hm]
    rfl
  have hstack : (m.after [.tick, .step]).registers.stack = [0x202] := by
    rw [hnow, hm]
    rfl
  have hactions : ∀ a ∈ [Action.tick, .step], a.stepped = true := by decide
  have hodd : (m.after [.tick, .step]).registers.pc.toNat % 2 = 1 := by rw [hpc]
  obtain ⟨-, hbranch, hrefused, -⟩ := stepped_alignment hload hactions
  exact ⟨m, hload, hactions, hpc, hstack, hbranch.mp hodd, hrefused hodd [.tick] (by decide)⟩

end Machine

end Chip8
