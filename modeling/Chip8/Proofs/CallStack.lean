import Chip8.Proofs.Atomicity
import Chip8.Proofs.Reachable

/-! # The call stack — return addresses in bounds, whatever is executed

    Only calls and returns touch the stack: a call pushes the address of the next
    word while there is room, a return goes on at the latest address and drops it.
    `Registers.Moved` says this once.  Since every way to go on reduces its address,
    the program counter and all return addresses stay below 4096, and the picture of
    the stack shows the return addresses, earliest first, and zeros after them. -/

namespace Chip8

/-! ## What moves the stack -/

/-- Whether an instruction pushes a return address. -/
def Instruction.isCall : Instruction → Bool
  | .call _ => true
  | _       => false

/-- Whether an instruction goes back to a return address. -/
def Instruction.isReturn : Instruction → Bool
  | .ret => true
  | _    => false

namespace Registers

theorem stack_setResult (r : Registers) (x value : Byte) (flag : Option Bool) :
    (r.setResult x value flag).stack = r.stack := by cases flag <;> rfl

theorem push?_eq_some {r r' : Registers} {a : Word} (h : r.push? a = some r') :
    r.stack.length < stackDepth ∧ r' = { r with stack := a :: r.stack } := by
  rw [push?] at h
  by_cases hfull : r.stackFull = true
  · rw [if_pos hfull] at h
    cases h
  · rw [if_neg hfull] at h
    rw [stackFull, decide_eq_true_eq] at hfull
    exact ⟨by omega, (Option.some.inj h).symm⟩

theorem pop?_eq_some {r r' : Registers} {a : Word} (h : r.pop? = some (a, r')) :
    r.stack = a :: r'.stack := by
  rw [pop?] at h
  cases hs : r.stack with
  | nil =>
      rw [hs] at h
      cases h
  | cons b s =>
      simp only [hs, Option.some.injEq, Prod.mk.injEq] at h
      obtain ⟨rfl, rfl⟩ := h
      rfl

/-- How an instruction that completes moves the stack, and the program counter with
    it. -/
inductive Moved (r : Registers) : Instruction → Registers → Prop where
  | call {target : Word} {r' : Registers} (room : r.stack.length < stackDepth)
      (pushed : r'.stack = offset r.pc 2 :: r.stack) (entered : r'.pc = wrap target) :
      Moved r (.call target) r'
  | ret {a : Word} {r' : Registers} (popped : r.stack = a :: r'.stack)
      (returned : r'.pc = wrap a) : Moved r .ret r'
  | other {i : Instruction} {r' : Registers} (hcall : i.isCall = false)
      (hreturn : i.isReturn = false) (kept : r'.stack = r.stack) : Moved r i r'

end Registers

theorem Flow.target_lt (pc : Word) (flow : Flow) : (flow.target pc).toNat < 4096 := by
  cases flow with
  | next => exact offset_lt pc 2
  | skip => exact offset_lt pc 4
  | jump a => exact wrap_lt a

namespace Machine

/-- Neither a call nor a return, an instruction leaves the stack alone. -/
theorem execute_stack {m changed : Machine} {i : Instruction} {flow : Flow}
    (h : m.execute i = (.ok flow, changed)) (hcall : i.isCall = false)
    (hreturn : i.isReturn = false) : changed.registers.stack = m.registers.stack := by
  have hchanged : changed = (m.execute i).2 := by rw [h]
  rw [hchanged]
  cases i with
  | call a => cases hcall
  | ret => cases hreturn
  | arith op x y => exact Registers.stack_setResult ..
  | loadKey x =>
      simp only [execute]
      split <;> rfl
  | _ => rfl

theorem perform_ok {m after : Machine} {i : Instruction} (h : m.perform i = (.ok (), after)) :
    ∃ flow changed, m.execute i = (.ok flow, changed) ∧
      after = changed.goTo (flow.target m.registers.pc) := by
  rcases he : m.execute i with ⟨result, changed⟩
  simp only [perform, he] at h
  cases result with
  | ok flow => exact ⟨flow, changed, rfl, (Prod.mk.inj h).2.symm⟩
  | error halt => cases h

/-- An instruction that completes moves the stack in its way. -/
theorem perform_moved {m after : Machine} {i : Instruction}
    (h : m.perform i = (.ok (), after)) : m.registers.Moved i after.registers := by
  obtain ⟨flow, changed, he, rfl⟩ := perform_ok h
  cases i with
  | call target =>
      simp only [execute] at he
      split at he
      · rename_i pushed hpush
        cases he
        obtain ⟨hroom, rfl⟩ := Registers.push?_eq_some hpush
        exact .call hroom rfl rfl
      · cases he
  | ret =>
      simp only [execute] at he
      split at he
      · rename_i a popped hpop
        cases he
        have hpopped : m.registers.stack = a :: popped.stack := Registers.pop?_eq_some hpop
        exact .ret hpopped rfl
      · cases he
  | _ =>
      have hkept : changed.registers.stack = m.registers.stack := execute_stack he rfl rfl
      exact .other rfl rfl hkept

/-- A return completes unless the stack is empty. -/
theorem perform_ret (m : Machine) :
    (m.perform .ret).1 =
      if m.registers.stack.length = 0 then .error (.fault (.stackUnderflow m.registers.pc))
      else .ok () := by
  simp only [perform, execute, Registers.pop?]
  cases m.registers.stack <;> rfl

/-- A call completes unless the stack is full. -/
theorem perform_call (m : Machine) (a : Word) :
    (m.perform (.call a)).1 =
      if stackDepth ≤ m.registers.stack.length then
        .error (.fault (.stackOverflow m.registers.pc))
      else .ok () := by
  simp only [perform, execute, Registers.push?, Registers.stackFull]
  by_cases hfull : stackDepth ≤ m.registers.stack.length
  · simp only [hfull, decide_true, if_true]
  · simp only [hfull, decide_false, if_false, Bool.false_eq_true]

/-- An action that does not complete leaves the machine as it was. -/
theorem act_error {m : Machine} {a : Action} {halt : Halt} (h : (m.act a).1 = .error halt) :
    (m.act a).2 = m := by
  cases a with
  | step => exact step_error h
  | perform i => exact perform_error h
  | tick => cases h
  | handle e => cases h

/-- An instruction that completes goes on below 4096. -/
theorem perform_pc_lt {m after : Machine} {i : Instruction}
    (h : m.perform i = (.ok (), after)) : after.registers.pc.toNat < 4096 := by
  obtain ⟨flow, changed, -, rfl⟩ := perform_ok h
  exact flow.target_lt m.registers.pc

end Machine

/-! ## The bounds -/

/-- The program counter and the return addresses are addresses of cells, and the stack
    is no deeper than it may be. -/
structure Registers.Bounded (r : Registers) : Prop where
  pc : r.pc.toNat < 4096
  entries : ∀ a ∈ r.stack, a.toNat < 4096
  depth : r.stack.length ≤ stackDepth

theorem Registers.bounded_initial : Registers.initial.Bounded :=
  ⟨by decide, nofun, by decide⟩

/-- The bounds hold of any registers with the same program counter and stack. -/
theorem Registers.Bounded.of_eq {r r' : Registers} (h : r.Bounded) (hpc : r'.pc = r.pc)
    (hstack : r'.stack = r.stack) : r'.Bounded :=
  ⟨hpc ▸ h.pc, hstack ▸ h.entries, hstack ▸ h.depth⟩

namespace Machine

/-- An instruction that completes keeps the bounds. -/
theorem bounded_perform {m after : Machine} {i : Instruction} (hm : m.registers.Bounded)
    (h : m.perform i = (.ok (), after)) : after.registers.Bounded := by
  have hpc : after.registers.pc.toNat < 4096 := perform_pc_lt h
  cases perform_moved h with
  | call room pushed _ =>
      refine ⟨hpc, fun a ha => ?_, ?_⟩
      · rw [pushed] at ha
        rcases List.mem_cons.mp ha with rfl | hold
        · exact offset_lt _ _
        · exact hm.entries a hold
      · rw [pushed, List.length_cons]
        omega
  | ret popped _ =>
      have hlength := hm.depth
      rw [popped, List.length_cons] at hlength
      refine ⟨hpc, fun a ha => hm.entries a ?_, by omega⟩
      rw [popped]
      exact List.mem_cons_of_mem _ ha
  | other _ _ kept => exact ⟨hpc, kept ▸ hm.entries, kept ▸ hm.depth⟩

/-- Every action keeps the bounds, whether it completes or not. -/
theorem bounded_act {m : Machine} (a : Action) (hm : m.registers.Bounded) :
    (m.act a).2.registers.Bounded := by
  cases hs : (m.act a).1 with
  | error halt =>
      rw [act_error hs]
      exact hm
  | ok =>
      cases he : m.executes a with
      | none =>
          obtain ⟨hpc, hstack⟩ := act_of_executes_none he
          exact hm.of_eq hpc hstack
      | some i =>
          rw [act_eq_perform he] at hs ⊢
          exact bounded_perform hm (Prod.ext hs rfl)

/-- What a machine is that has just loaded a program. -/
theorem eq_of_load {source : RandomSource} {image : List Byte} {keypad : Keypad}
    {config : Config} {m : Machine} (h : load source image keypad config = .ok m) :
    ∃ memory, Memory.load image = .ok memory ∧
      m = ⟨.initial, memory, .blank, keypad, source.stream config.seed, config⟩ := by
  rw [load] at h
  cases hmemory : Memory.load image with
  | error f =>
      rw [hmemory] at h
      cases h
  | ok memory =>
      rw [hmemory] at h
      exact ⟨memory, rfl, (Except.ok.inj h).symm⟩

/-- The bounds hold of every machine that comes about. -/
theorem Reachable.bounded {m : Machine} (h : m.Reachable) : m.registers.Bounded := by
  refine h.invariant (P := fun m => m.registers.Bounded) bounded_act fun hload => ?_
  obtain ⟨memory, -, rfl⟩ := eq_of_load hload
  exact Registers.bounded_initial

end Machine

/-! ## The picture of the stack -/

/-- The picture of a stack that is not too deep shows the return addresses, earliest
    first, and zeros after them. -/
theorem Registers.toList_stack_snapshot {r : Registers} (h : r.stack.length ≤ stackDepth) :
    r.snapshot.stack.toList =
      r.stack.reverse ++ List.replicate (stackDepth - r.stack.length) 0 := by
  have hdepth : r.stack.length ≤ 16 := h
  refine List.ext_getElem ?_ fun k hk hk' => ?_
  · simp only [Vector.length_toList, List.length_append, List.length_reverse,
      List.length_replicate, stackDepth]
    omega
  · rw [Vector.length_toList] at hk
    have hplace : r.snapshot.stack.toList[k] = r.stack.reverse[k]?.getD 0 := by
      rw [Vector.getElem_toList]
      refine (getElem_putFrom _ 0 r.stack.reverse ⟨k, hk⟩).trans ?_
      rw [if_pos (Nat.zero_le _), Fin.getElem_fin, Vector.getElem_replicate]
      rfl
    rw [hplace]
    by_cases hlive : k < r.stack.reverse.length
    · rw [List.getElem_append_left hlive, List.getElem?_eq_getElem hlive, Option.getD_some]
    · have hfree : r.stack.reverse.length ≤ k := Nat.le_of_not_lt hlive
      rw [List.getElem_append_right hfree, List.getElem_replicate,
        List.getElem?_eq_none hfree, Option.getD_none]

/-- The picture shows the number of return addresses. -/
theorem Registers.toNat_depth_snapshot {r : Registers} (h : r.stack.length ≤ stackDepth) :
    r.snapshot.depth.toNat = r.stack.length := by
  have hdepth : r.stack.length ≤ 16 := h
  rw [snapshot, BitVec.toNat_ofNat]
  omega

/-- **BOUNDS**: in every machine that comes about, from any program, keypad and
    configuration and through any instructions, in range or not, the program counter and
    all return addresses are below 4096 and there are at most sixteen of these; and the
    picture of the stack shows their number, the addresses from the earliest on, and
    zeros in the places that are free. -/
theorem Machine.reachable_bounds {m : Machine} (h : m.Reachable) :
    m.registers.pc.toNat < 4096 ∧
    (∀ a ∈ m.registers.stack, a.toNat < 4096) ∧
    m.registers.stack.length ≤ 16 ∧
    m.registers.snapshot.depth.toNat = m.registers.stack.length ∧
    m.registers.snapshot.stack.toList =
      m.registers.stack.reverse ++ List.replicate (16 - m.registers.stack.length) 0 :=
  have hbounded := h.bounded
  ⟨hbounded.pc, hbounded.entries, hbounded.depth,
    Registers.toNat_depth_snapshot hbounded.depth,
    Registers.toList_stack_snapshot hbounded.depth⟩

/-- Two calls of addresses out of range and a return, and then a jump out of range. -/
theorem Machine.reachable_bounds_after_return :
    let m := (idle .absent).after [.perform (.call 0x1300), .perform (.call 0xFFFF),
      .perform .ret, .perform (.jumpPlus 0x7FFE)]
    m.Reachable ∧ m.registers.pc = 0xFFE ∧ m.registers.pc.toNat < 4096 ∧
      m.registers.snapshot.stack.toList = 0x202 :: List.replicate 15 0 := by
  intro m
  have hm : m.Reachable := (Reachable.loaded (load_nil .absent)).after _
  obtain ⟨hpc, -, -, -, hpicture⟩ := reachable_bounds hm
  exact ⟨hm, rfl, hpc, hpicture⟩

end Chip8
