import Chip8.Proofs.CallStack

/-! # Bracketing — a return leads back behind its call

    As long as the stack stays above the depth at which a call found it, the return
    address and everything under it lie untouched at the bottom, through any nested
    calls and returns.  So the return that belongs to the call goes on behind it, with
    the stack that the call found.  And since nothing but calls and returns moves the
    stack, its depth counts the calls that are open. -/

namespace Chip8.Machine

/-! ## Actions that complete -/

/-- The instruction that an action completes, if it completes one. -/
def completes (m : Machine) (a : Action) : Option Instruction :=
  match (m.act a).1 with
  | .ok ()   => m.executes a
  | .error _ => none

/-- The instructions that actions in a row complete. -/
def completed : Machine → List Action → List Instruction
  | _, []     => []
  | m, a :: r => (m.completes a).toList ++ completed (m.act a).2 r

/-- Actions in a row complete, and the stack is at least `d` deep before, between and
    after them. -/
def StaysAbove (d : Nat) : Machine → List Action → Prop
  | m, []     => d ≤ m.registers.stack.length
  | m, a :: r =>
    d ≤ m.registers.stack.length ∧ (m.act a).1 = .ok () ∧ StaysAbove d (m.act a).2 r

theorem StaysAbove.depth {d : Nat} {m : Machine} {actions : List Action}
    (h : StaysAbove d m actions) : d ≤ m.registers.stack.length := by
  cases actions with
  | nil => exact h
  | cons a r => exact h.1

/-- An action that completes a call or a return moves the stack in its way, and any
    other that completes leaves it alone. -/
theorem act_stack {m : Machine} {a : Action} (h : (m.act a).1 = .ok ()) :
    (∃ i, m.executes a = some i ∧ m.registers.Moved i (m.act a).2.registers) ∨
      m.executes a = none ∧ (m.act a).2.registers.stack = m.registers.stack := by
  cases he : m.executes a with
  | none => exact .inr ⟨rfl, (act_of_executes_none he).2⟩
  | some i =>
      refine .inl ⟨i, rfl, ?_⟩
      rw [act_eq_perform he] at h ⊢
      exact perform_moved (Prod.ext h rfl)

/-- The instruction that an action completes is performed, and completes. -/
theorem perform_of_completes {m : Machine} {a : Action} {i : Instruction}
    (h : m.completes a = some i) :
    m.executes a = some i ∧ m.perform i = (.ok (), (m.act a).2) := by
  rw [completes] at h
  split at h
  · rename_i hok
    refine ⟨h, ?_⟩
    rw [act_eq_perform h] at hok ⊢
    exact Prod.ext hok rfl
  · cases h

/-- An action that completes no instruction leaves the program counter and the stack
    alone, whether it has none or fails at one. -/
theorem act_of_completes_none {m : Machine} {a : Action} (h : m.completes a = none) :
    (m.act a).2.registers.pc = m.registers.pc ∧
      (m.act a).2.registers.stack = m.registers.stack := by
  rw [completes] at h
  split at h
  · exact act_of_executes_none h
  · rename_i halt hfailed
    rw [act_error hfailed]
    exact ⟨rfl, rfl⟩

theorem completed_append (m : Machine) (s t : List Action) :
    m.completed (s ++ t) = m.completed s ++ (m.after s).completed t := by
  induction s generalizing m with
  | nil => rfl
  | cons a r ih =>
      rw [List.cons_append, completed, completed, ih, List.append_assoc]
      rfl

/-- The program counter stays where it is while no instruction completes. -/
theorem pc_after_of_completed_nil {m : Machine} {actions : List Action}
    (h : m.completed actions = []) : (m.after actions).registers.pc = m.registers.pc := by
  induction actions generalizing m with
  | nil => rfl
  | cons a r ih =>
      rw [completed] at h
      obtain ⟨hfirst, hrest⟩ := List.append_eq_nil_iff.mp h
      have hnone : m.completes a = none := Option.toList_eq_nil_iff.mp hfirst
      rw [after, ih hrest]
      exact (act_of_completes_none hnone).1

/-! ## The bottom of the stack -/

/-- An action that leaves the stack no shallower than its bottom leaves the bottom as it
    is. -/
theorem suffix_act {m : Machine} {a : Action} {bottom : List Word}
    (hbottom : bottom <:+ m.registers.stack) (hok : (m.act a).1 = .ok ())
    (hdepth : bottom.length ≤ (m.act a).2.registers.stack.length) :
    bottom <:+ (m.act a).2.registers.stack := by
  rcases act_stack hok with ⟨i, -, hmoved⟩ | ⟨-, hkept⟩
  · cases hmoved with
    | call _ pushed _ =>
        rw [pushed]
        exact hbottom.trans (List.suffix_cons _ _)
    | ret popped _ =>
        rw [popped] at hbottom
        rcases List.suffix_cons_iff.mp hbottom with rfl | hrest
        -- the bottom would be one deeper than what is left
        · rw [List.length_cons] at hdepth
          omega
        · exact hrest
    | other _ _ kept => rwa [kept]
  · rwa [hkept]

theorem suffix_after {m : Machine} {actions : List Action} {bottom : List Word}
    (hbottom : bottom <:+ m.registers.stack)
    (habove : StaysAbove bottom.length m actions) :
    bottom <:+ (m.after actions).registers.stack := by
  induction actions generalizing m with
  | nil => exact hbottom
  | cons a r ih =>
      obtain ⟨-, hok, hrest⟩ := habove
      exact ih (suffix_act hbottom hok hrest.depth) hrest

/-- A call that completes pushes the address behind it. -/
theorem completes_call {m : Machine} {a : Action} {target : Word}
    (h : m.completes a = some (.call target)) :
    (m.act a).2.registers.stack = offset m.registers.pc 2 :: m.registers.stack := by
  cases perform_moved (perform_of_completes h).2 with
  | call _ pushed _ => exact pushed
  | other hcall _ _ => cases hcall

/-- A return with a return address on the stack goes on there and drops it. -/
theorem act_return {m : Machine} {a : Action} {back : Word} {rest : List Word}
    (h : m.executes a = some .ret) (hstack : m.registers.stack = back :: rest) :
    (m.act a).1 = .ok () ∧ (m.act a).2.registers.pc = wrap back ∧
      (m.act a).2.registers.stack = rest := by
  have hok : (m.perform .ret).1 = .ok () := by
    rw [perform_ret, hstack]
    rfl
  rw [act_eq_perform h]
  refine ⟨hok, ?_⟩
  cases perform_moved (Prod.ext hok rfl) with
  | ret popped returned =>
      rw [hstack] at popped
      obtain ⟨rfl, hrest⟩ := List.cons.inj popped
      exact ⟨returned, hrest.symm⟩
  | other _ hreturn _ => cases hreturn

/-! ## The depth of the stack -/

/-- An action changes the depth by what it completes: a call adds one, a return takes
    one away. -/
theorem depth_act (m : Machine) (a : Action) :
    (m.act a).2.registers.stack.length + (m.completes a).toList.countP (·.isReturn) =
      m.registers.stack.length + (m.completes a).toList.countP (·.isCall) := by
  cases hs : (m.act a).1 with
  | error halt =>
      have hnone : m.completes a = none := by simp only [completes, hs]
      rw [hnone, act_error hs]
      rfl
  | ok =>
      have hsame : m.completes a = m.executes a := by simp only [completes, hs]
      rw [hsame]
      rcases act_stack hs with ⟨i, hi, hmoved⟩ | ⟨hnone, hkept⟩
      · rw [hi]
        cases hmoved with
        | call _ pushed _ =>
            rw [pushed]
            rfl
        | ret popped _ =>
            rw [popped]
            rfl
        | other hcall hreturn kept =>
            simp only [kept, Option.toList_some, List.countP_singleton, hcall, hreturn]
      · rw [hnone, hkept]
        rfl

theorem depth_after (m : Machine) (actions : List Action) :
    (m.after actions).registers.stack.length + (m.completed actions).countP (·.isReturn) =
      m.registers.stack.length + (m.completed actions).countP (·.isCall) := by
  induction actions generalizing m with
  | nil => rfl
  | cons a r ih =>
      have hfirst := depth_act m a
      have hrest := ih (m.act a).2
      simp only [after, completed, List.countP_append]
      omega

/-! ## Calls and their returns -/

/-- **BRACKETING**: when a call completes, in any state, and the actions after it
    complete with the stack above the depth that the call found, then a return at the
    depth just above completes, goes on behind the call, and leaves the stack that the
    call found.  And after any actions on a loaded machine the depth is the number of
    completed calls less that of completed returns, a call fails just at depth sixteen,
    with a stack overflow, and a return just at depth zero, with a stack underflow. -/
theorem calls_bracketed :
    (∀ (m : Machine) (entry exit : Action) (target : Word) (actions : List Action),
      m.completes entry = some (.call target) →
      StaysAbove (m.registers.stack.length + 1) (m.act entry).2 actions →
      let inner := (m.act entry).2.after actions
      inner.registers.stack.length = m.registers.stack.length + 1 →
      inner.executes exit = some .ret →
      (inner.act exit).1 = .ok () ∧
        (inner.act exit).2.registers.pc.toNat = (m.registers.pc.toNat + 2) % 4096 ∧
        (inner.act exit).2.registers.stack = m.registers.stack) ∧
    (∀ (source : RandomSource) (image : List Byte) (keypad : Keypad) (config : Config)
      (m : Machine) (actions : List Action), load source image keypad config = .ok m →
      let now := m.after actions
      now.registers.stack.length + (m.completed actions).countP (·.isReturn) =
        (m.completed actions).countP (·.isCall) ∧
      (∀ a target, now.executes a = some (.call target) →
        (now.act a).1 = if now.registers.stack.length = 16 then
          .error (.fault (.stackOverflow now.registers.pc)) else .ok ()) ∧
      (∀ a, now.executes a = some .ret →
        (now.act a).1 = if now.registers.stack.length = 0 then
          .error (.fault (.stackUnderflow now.registers.pc)) else .ok ())) := by
  refine ⟨?_, ?_⟩
  · intro m entry exit target actions hcall habove inner hdepth hexit
    have hpushed := completes_call hcall
    have hbottom : offset m.registers.pc 2 :: m.registers.stack <:+ inner.registers.stack :=
      suffix_after (hpushed ▸ List.suffix_rfl) habove
    have hinner : inner.registers.stack = offset m.registers.pc 2 :: m.registers.stack :=
      (hbottom.eq_of_length hdepth.symm).symm
    obtain ⟨hok, hpc, hstack⟩ := act_return hexit hinner
    refine ⟨hok, ?_, hstack⟩
    rw [hpc, toNat_wrap, toNat_offset, Nat.mod_mod]
    rfl
  · intro source image keypad config m actions hload now
    have hnow : now.registers.stack.length ≤ 16 :=
      ((Reachable.loaded hload).after actions).bounded.depth
    refine ⟨?_, ?_, ?_⟩
    · obtain ⟨memory, -, rfl⟩ := eq_of_load hload
      have hcount := depth_after
        ⟨.initial, memory, .blank, keypad, source.stream config.seed, config⟩ actions
      rwa [show Registers.initial.stack.length = 0 from rfl, Nat.zero_add] at hcount
    · intro a target ha
      have hfull : stackDepth ≤ now.registers.stack.length ↔ now.registers.stack.length = 16 :=
        ⟨fun h => Nat.le_antisymm hnow h, fun h => Nat.le_of_eq h.symm⟩
      rw [act_eq_perform ha, perform_call]
      simp only [hfull]
    · intro a ha
      rw [act_eq_perform ha, perform_ret]

/-- A call with another inside it, and one return too many. -/
theorem calls_bracketed_nested :
    let m := idle .absent
    let inside : List Action := [.tick, .perform (.call 0x1456), .perform .ret]
    let inner := (m.act (.perform (.call 0x300))).2.after inside
    let outer := (inner.act (.perform .ret)).2
    (m.completes (.perform (.call 0x300)) = some (.call 0x300) ∧
      StaysAbove 1 (m.act (.perform (.call 0x300))).2 inside ∧
      inner.registers.stack.length = 1 ∧ inner.executes (.perform .ret) = some .ret) ∧
    (outer.registers.pc.toNat = 0x202 ∧ outer.registers.stack = []) ∧
    load (Keystream.source 0) [] .absent .standard = .ok m ∧
    (outer.act (.perform .ret)).1 = .error (.fault (.stackUnderflow 0x202)) := by
  intro m inside inner outer
  have hentry : m.completes (.perform (.call 0x300)) = some (.call 0x300) := rfl
  have habove : StaysAbove 1 (m.act (.perform (.call 0x300))).2 inside :=
    ⟨by decide, rfl, by decide, rfl, by decide, rfl, Nat.le_refl 1⟩
  have hload : load (Keystream.source 0) [] .absent .standard = .ok m := load_nil .absent
  obtain ⟨-, hpc, hstack⟩ := calls_bracketed.1 m _ (.perform .ret) _ inside hentry habove rfl rfl
  obtain ⟨-, -, hreturn⟩ := calls_bracketed.2 (Keystream.source 0) [] .absent .standard m
    (.perform (.call 0x300) :: inside ++ [.perform .ret]) hload
  exact ⟨⟨hentry, habove, rfl, rfl⟩, ⟨hpc, hstack⟩, hload, hreturn (.perform .ret) rfl⟩

end Chip8.Machine
