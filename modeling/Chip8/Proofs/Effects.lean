import Chip8.Proofs.Ranges
import Chip8.Proofs.StraightLine
import Chip8.Proofs.CallStack

/-! # Effects — the parts of a machine that an instruction can change

    A machine is taken apart into `Part`s, memory by cells and the data registers one by
    one.  `Machine.reach` is a table: a row for each instruction, with the parts that the
    instruction can change; where these are cells or registers, the row tells which.  An
    instruction that completes changes no other part, and the program counter, which is in
    no row, goes where `Machine.LeadsTo` says. -/

namespace Chip8

/-- A part of a machine beside the program counter. -/
inductive Part where
  | cell (c : Fin 4096)
  | register (s : Fin 16)
  | screen
  | stack
  | index
  | delay
  | sound
  | keypad
  | random
  | config
  deriving DecidableEq

/-- The part is the same in two machines. -/
def Part.Same (m m' : Machine) : Part → Prop
  | cell c     => m'.memory.cells[c] = m.memory.cells[c]
  | register s => m'.registers.v.get s = m.registers.v.get s
  | screen     => m'.screen = m.screen
  | stack      => m'.registers.stack = m.registers.stack
  | index      => m'.registers.index = m.registers.index
  | delay      => m'.registers.delay = m.registers.delay
  | sound      => m'.registers.sound = m.registers.sound
  | keypad     => m'.keypad = m.keypad
  | random     => m'.random = m.random
  | config     => m'.config = m.config

theorem Part.Same.trans {m₁ m₂ m₃ : Machine} {p : Part} (h : p.Same m₁ m₂)
    (h' : p.Same m₂ m₃) : p.Same m₁ m₃ := by
  cases p <;> exact Eq.trans h' h

attribute [ext] Registers Machine

/-- Nothing is left out: the parts and the program counter make up the machine. -/
theorem Machine.ext_parts {m m' : Machine} (h : ∀ p : Part, p.Same m m')
    (hpc : m'.registers.pc = m.registers.pc) : m' = m := by
  have hmemory : m'.memory = m.memory := by
    refine Memory.ext_read ?_
    intro a
    exact h (.cell (cell a))
  have hv : m'.registers.v = m.registers.v := by
    apply Vector.ext
    intro s hs
    exact h (.register ⟨s, hs⟩)
  have hregisters : m'.registers = m.registers :=
    Registers.ext hv (h .index) (h .delay) (h .sound) hpc (h .stack)
  exact Machine.ext hregisters hmemory (h .screen) (h .keypad) (h .random) (h .config)

/-! ## Cells that are written -/

namespace Memory

theorem cellsFrom_eq (a : Word) (count : Nat) :
    cellsFrom a count = (List.range count).map (cellFrom a) :=
  List.map_congr_left fun k _ => cell_offset a k

/-- Cells outside the range that is written keep their bytes. -/
theorem cells_writeRange {m : Memory} {a : Word} {bytes : List Byte} {c : Fin 4096}
    (h : c ∉ (List.range bytes.length).map (cellFrom a)) :
    (m.writeRange a bytes).cells[c] = m.cells[c] := by
  have hcell : cell (BitVec.ofNat 16 c.val) = c := Fin.ext (cell_ofNat c.isLt)
  rw [← cellsFrom_eq, ← hcell] at h
  have hread := read_writeRange (m := m) h
  simpa only [read, hcell] using hread

end Memory

theorem BulkTransfer.count_le (bulk : BulkTransfer) (x : Byte) : bulk.count x ≤ 16 := by
  cases bulk with
  | allRegisters => exact Nat.le_refl 16
  | throughX => exact (slot x).isLt

theorem Registers.length_first (r : Registers) {count : Nat} (h : count ≤ 16) :
    (r.first count).length = count := by
  rw [first, List.length_take, Vector.length_toList]
  omega

namespace Machine

/-! ## The table -/

/-- The cells from the address register on. -/
def cellParts (m : Machine) (count : Nat) : List Part :=
  (List.range count).map fun k => .cell (cellFrom m.registers.index k)

/-- The first data registers. -/
def firstParts (count : Nat) : List Part :=
  ((List.finRange 16).filter (·.val < count)).map .register

/-- The flag register. -/
def flagPart : Part := .register (slot Registers.flagRegister)

/-- The parts that an instruction can change. -/
def reach (m : Machine) : Instruction → List Part
  | .routine _           => []
  | .clear               => [.screen]
  | .ret                 => [.stack]
  | .jump _              => []
  | .call _              => [.stack]
  | .jumpPlus _          => []
  | .skip _              => []
  | .loadByte x _        => [.register (slot x)]
  | .addByte x _         => [.register (slot x)]
  | .arith .add x _      => [flagPart, .register (slot x)]
  | .arith .sub x _      => [flagPart, .register (slot x)]
  | .arith .subFrom x _  => [flagPart, .register (slot x)]
  | .arith _ x _         => [.register (slot x)]
  | .shift _ x           => [flagPart, .register (slot x)]
  | .loadIndex _         => [.index]
  | .addIndex _          => [.index]
  | .loadGlyph _         => [.index]
  | .random x _          => [.register (slot x), .random]
  | .draw _ _ _          => [flagPart, .screen]
  | .loadDelay x         => [.register (slot x)]
  | .loadKey x           => [.register (slot x), .keypad]
  | .setDelay _          => [.delay]
  | .setSound _          => [.sound]
  | .storeDecimal _      => m.cellParts 3
  | .storeRegisters x    => m.cellParts (m.config.bulk.count x)
  | .loadRegisters x     => firstParts (m.config.bulk.count x)

/-- Where an instruction that completes leaves the program counter. -/
inductive LeadsTo (m : Machine) : Instruction → Nat → Prop where
  | jump {a : Word} : LeadsTo m (.jump a) (a.toNat % 4096)
  | call {a : Word} : LeadsTo m (.call a) (a.toNat % 4096)
  | jumpPlus {a : Word} :
      LeadsTo m (.jumpPlus a) ((a.toNat + (m.registers.get 0).toNat) % 4096)
  | ret {a : Word} {rest : List Word} (latest : m.registers.stack = a :: rest) :
      LeadsTo m .ret (a.toNat % 4096)
  | skipped {t : Test} (condition : m.holds t = true) :
      LeadsTo m (.skip t) ((m.registers.pc.toNat + 4) % 4096)
  | unskipped {t : Test} (condition : m.holds t = false) :
      LeadsTo m (.skip t) ((m.registers.pc.toNat + 2) % 4096)
  | next {i : Instruction} (straight : i.straight = true) :
      LeadsTo m i ((m.registers.pc.toNat + 2) % 4096)

/-! ## Changes of single parts -/

/-- The other machine differs from this one in no part but the listed ones. -/
def ChangesOnly (m : Machine) (parts : List Part) (m' : Machine) : Prop :=
  ∀ p, p ∉ parts → p.Same m m'

/-- One change: a part, and what it is replaced by. -/
inductive Change where
  | register (x value : Byte)
  | screen (s : Screen)
  | stack (s : List Word)
  | index (a : Word)
  | delay (value : Byte)
  | sound (value : Byte)
  | keypad (k : Keypad)
  | random (s : RandomStream)

/-- The part that a change replaces. -/
def Change.part : Change → Part
  | register x _ => .register (slot x)
  | screen _     => .screen
  | stack _      => .stack
  | index _      => .index
  | delay _      => .delay
  | sound _      => .sound
  | keypad _     => .keypad
  | random _     => .random

/-- The machine after a change. -/
def change (m : Machine) : Change → Machine
  | .register x value => m.setReg x value
  | .screen s         => { m with screen := s }
  | .stack s          => { m with registers := { m.registers with stack := s } }
  | .index a          => { m with registers := { m.registers with index := a } }
  | .delay value      => { m with registers := { m.registers with delay := value } }
  | .sound value      => { m with registers := { m.registers with sound := value } }
  | .keypad k         => { m with keypad := k }
  | .random s         => { m with random := s }

/-- A change changes its part only. -/
theorem changesOnly_change (m : Machine) (c : Change) : m.ChangesOnly [c.part] (m.change c) := by
  intro p hp
  rw [List.mem_singleton] at hp
  cases c with
  | register x value =>
      cases p with
      | register s =>
          have hother : (slot x).val ≠ s.val := by
            intro heq
            exact hp (congrArg Part.register (Fin.ext heq.symm))
          exact Vector.getElem_set_ne (slot x).isLt s.isLt hother
      | _ => rfl
  | _ => cases p <;> first | rfl | exact absurd rfl hp

namespace ChangesOnly

variable {m m₁ m₂ : Machine}

theorem nothing : m.ChangesOnly [] m := by
  intro p _
  cases p <;> rfl

/-- Changes one after the other change the parts of both. -/
theorem trans {s t : List Part} (h : m.ChangesOnly s m₁) (h' : m₁.ChangesOnly t m₂) :
    m.ChangesOnly (s ++ t) m₂ := by
  intro p hp
  rw [List.mem_append, not_or] at hp
  exact (h p hp.1).trans (h' p hp.2)

/-- One more change. -/
theorem and_change {s : List Part} (h : m.ChangesOnly s m₁) (c : Change) :
    m.ChangesOnly (s ++ [c.part]) (m₁.change c) :=
  h.trans (m₁.changesOnly_change c)

/-- The program counter is no part. -/
theorem goTo {s : List Part} (h : m.ChangesOnly s m₁) (pc : Word) :
    m.ChangesOnly s (m₁.goTo pc) := by
  intro p hp
  refine (h p hp).trans ?_
  cases p <;> rfl

end ChangesOnly

/-- Bytes that are written change the cells of their range. -/
theorem changesOnly_writeRange (m : Machine) (bytes : List Byte) :
    m.ChangesOnly (m.cellParts bytes.length)
      { m with memory := m.memory.writeRange m.registers.index bytes } := by
  intro p hp
  cases p with
  | cell c =>
      refine Memory.cells_writeRange fun hc => hp ?_
      obtain ⟨k, hk, rfl⟩ := List.mem_map.mp hc
      exact List.mem_map.mpr ⟨k, hk, rfl⟩
  | _ => rfl

/-- Loading the first data registers changes no others. -/
theorem changesOnly_setFirst (m : Machine) {count : Nat} (h : count ≤ 16)
    (value : Nat → Byte) :
    m.ChangesOnly (firstParts count) { m with registers := m.registers.setFirst count value } := by
  intro p hp
  cases p with
  | register s =>
      have hbehind : ¬ s.val < count := by
        intro hs
        refine hp (List.mem_map.mpr ⟨s, ?_, rfl⟩)
        exact List.mem_filter.mpr ⟨List.mem_finRange s, decide_eq_true hs⟩
      show (m.registers.setFirst count value).v.get s = m.registers.v.get s
      rw [Registers.get_setFirst m.registers h, if_neg hbehind]
  | _ => rfl

/-- A result that is stored with a flag changes the flag register and its own. -/
theorem changesOnly_setFlagged (m : Machine) (x value : Byte) (flag : Bool) :
    m.ChangesOnly [flagPart, .register (slot x)]
      { m with registers := m.registers.setFlagged x value flag } :=
  (m.changesOnly_change (.register Registers.flagRegister (Registers.flagValue flag))).and_change
    (.register x value)

/-! ## Instructions -/

/-- Executing an instruction changes the parts of its row only. -/
theorem execute_changesOnly {m changed : Machine} {i : Instruction} {flow : Flow}
    (h : m.execute i = (.ok flow, changed)) : m.ChangesOnly (m.reach i) changed := by
  cases i with
  | routine a => cases h
  | ret =>
      simp only [execute, Registers.pop?] at h
      cases hstack : m.registers.stack with
      | nil =>
          rw [hstack] at h
          cases h
      | cons a rest =>
          rw [hstack] at h
          cases h
          exact m.changesOnly_change (.stack rest)
  | call a =>
      simp only [execute] at h
      cases hpush : m.registers.push? (offset m.registers.pc 2) with
      | none =>
          rw [hpush] at h
          cases h
      | some pushed =>
          rw [hpush] at h
          cases h
          obtain ⟨-, rfl⟩ := Registers.push?_eq_some hpush
          exact m.changesOnly_change (.stack _)
  | loadKey x =>
      simp only [execute] at h
      rcases hawait : m.keypad.await with ⟨answer, keypad⟩
      rw [hawait] at h
      cases answer with
      | pressed code =>
          cases h
          exact (m.changesOnly_change (.register x (code &&& 0x0F))).and_change (.keypad keypad)
      | closed => cases h
      | silent => cases h
  | storeRegisters x =>
      cases h
      have hwritten := m.changesOnly_writeRange (m.registers.first (m.config.bulk.count x))
      rwa [Registers.length_first _ (BulkTransfer.count_le _ x)] at hwritten
  | jump a =>
      cases h
      exact .nothing
  | jumpPlus a =>
      cases h
      exact .nothing
  | skip t =>
      cases h
      exact .nothing
  | clear =>
      cases h
      exact m.changesOnly_change (.screen .blank)
  | loadByte x k =>
      cases h
      exact m.changesOnly_change (.register x k)
  | addByte x k =>
      cases h
      exact m.changesOnly_change (.register x (m.registers.get x + k))
  | loadDelay x =>
      cases h
      exact m.changesOnly_change (.register x m.registers.delay)
  | arith op x y =>
      cases h
      cases op with
      | add => exact m.changesOnly_setFlagged x _ _
      | sub => exact m.changesOnly_setFlagged x _ _
      | subFrom => exact m.changesOnly_setFlagged x _ _
      | _ => exact m.changesOnly_change (.register x _)
  | shift d x =>
      cases h
      exact m.changesOnly_setFlagged x _ _
  | loadIndex a =>
      cases h
      exact m.changesOnly_change (.index a)
  | addIndex x =>
      cases h
      exact m.changesOnly_change (.index _)
  | loadGlyph x =>
      cases h
      exact m.changesOnly_change (.index _)
  | random x k =>
      cases h
      exact (m.changesOnly_change (.register x (m.random.next &&& k))).and_change
        (.random m.random.advance)
  | draw x y rows =>
      cases h
      let drawn := m.screen.draw (m.memory.readRange m.registers.index rows.toNat)
        (m.registers.get x) (m.registers.get y)
      exact (m.changesOnly_change
        (.register Registers.flagRegister (Registers.flagValue drawn.2))).and_change
          (.screen drawn.1)
  | setDelay x =>
      cases h
      exact m.changesOnly_change (.delay (m.registers.get x))
  | setSound x =>
      cases h
      exact m.changesOnly_change (.sound (m.registers.get x))
  | storeDecimal x =>
      cases h
      exact m.changesOnly_writeRange (decimalDigits (m.registers.get x))
  | loadRegisters x =>
      cases h
      exact m.changesOnly_setFirst (BulkTransfer.count_le _ x) _

/-- So does performing it, since the program counter is no part. -/
theorem perform_changesOnly {m after : Machine} {i : Instruction}
    (h : m.perform i = (.ok (), after)) : m.ChangesOnly (m.reach i) after := by
  obtain ⟨flow, changed, hexecute, rfl⟩ := perform_ok h
  exact (execute_changesOnly hexecute).goTo (flow.target m.registers.pc)

/-- No instruction reaches the configuration. -/
theorem config_not_mem_reach (m : Machine) (i : Instruction) : Part.config ∉ m.reach i := by
  cases i with
  | arith op x y => cases op <;> simp [reach, flagPart]
  | _ => simp [reach, flagPart, cellParts, firstParts]

/-- So no action changes it, whether it completes or not. -/
theorem config_act (m : Machine) (a : Action) : (m.act a).2.config = m.config := by
  cases hexecutes : m.executes a with
  | none =>
      obtain ⟨keypad, delay, sound, hafter⟩ := act_eq_of_executes_none hexecutes
      rw [hafter]
  | some i =>
      rw [act_eq_perform hexecutes]
      cases houtcome : (m.perform i).1 with
      | ok =>
          have hperform : m.perform i = (.ok (), (m.perform i).2) := Prod.ext houtcome rfl
          exact perform_changesOnly hperform .config (m.config_not_mem_reach i)
      | error halt => rw [perform_error houtcome]

theorem config_after (m : Machine) (actions : List Action) :
    (m.after actions).config = m.config := by
  refine invariant_after (P := fun later => later.config = m.config) ?_ rfl actions
  intro later a hlater
  rw [config_act, hlater]

/-- An instruction that completes goes on where it leads to. -/
theorem perform_leadsTo {m after : Machine} {i : Instruction}
    (h : m.perform i = (.ok (), after)) : m.LeadsTo i after.registers.pc.toNat := by
  cases i with
  | jump a =>
      cases h
      show m.LeadsTo (.jump a) (wrap a).toNat
      rw [toNat_wrap]
      exact .jump
  | jumpPlus a =>
      cases h
      have hpc : (wrap (a + (m.registers.get 0).setWidth 16)).toNat =
          (a.toNat + (m.registers.get 0).toNat) % 4096 := by
        rw [toNat_wrap, BitVec.toNat_add, BitVec.toNat_setWidth]
        omega
      show m.LeadsTo (.jumpPlus a) (wrap (a + (m.registers.get 0).setWidth 16)).toNat
      rw [hpc]
      exact .jumpPlus
  | call a =>
      cases perform_moved h with
      | call _ _ entered =>
          rw [entered, toNat_wrap]
          exact .call
      | other hcall _ _ => cases hcall
  | ret =>
      cases perform_moved h with
      | ret popped returned =>
          rw [returned, toNat_wrap]
          exact .ret popped
      | other _ hreturn _ => cases hreturn
  | skip t =>
      have hpc : after.registers.pc = (Flow.skipIf (m.holds t)).target m.registers.pc := by
        cases h
        rfl
      rw [hpc]
      cases hcondition : m.holds t with
      | true =>
          show m.LeadsTo (.skip t) (offset m.registers.pc 4).toNat
          rw [toNat_offset]
          exact .skipped hcondition
      | false =>
          show m.LeadsTo (.skip t) (offset m.registers.pc 2).toNat
          rw [toNat_offset]
          exact .unskipped hcondition
  | _ =>
      rw [perform_straight rfl h, toNat_offset]
      exact .next rfl

/-- **EFFECTS**: in every machine, an instruction that completes, with operands in range or
    not, changes no part of the machine but those in its row of the table, and goes on at
    the next word, at the one after that if it is a skip whose condition holds, or at the
    target of a jump, a call or a return, always around the end of memory. -/
theorem effects_confined {m after : Machine} {i : Instruction}
    (h : m.perform i = (.ok (), after)) :
    (∀ p, p ∉ m.reach i → p.Same m after) ∧ m.LeadsTo i after.registers.pc.toNat :=
  ⟨perform_changesOnly h, perform_leadsTo h⟩

/-- Three registers are stored around the end of memory, and the cell behind them stays. -/
theorem effects_confined_around_end :
    let m := { idle .absent with
      registers := { Registers.initial with index := 0xFFFE }
      config := { Config.standard with bulk := .throughX } }
    let after := (m.perform (.storeRegisters 0x12)).2
    m.perform (.storeRegisters 0x12) = (.ok (), after) ∧
      m.reach (.storeRegisters 0x12) = [.cell 4094, .cell 4095, .cell 0] ∧
      after.memory.cells[1] = m.memory.cells[1] ∧ after.screen = m.screen ∧
      m.LeadsTo (.storeRegisters 0x12) after.registers.pc.toNat := by
  intro m after
  have hperform : m.perform (.storeRegisters 0x12) = (.ok (), after) := rfl
  have hreach : m.reach (.storeRegisters 0x12) = [.cell 4094, .cell 4095, .cell 0] := by decide
  obtain ⟨hsame, hleads⟩ := effects_confined hperform
  rw [hreach] at hsame
  refine ⟨hperform, hreach, ?_, ?_, hleads⟩
  · exact hsame (.cell 1) (by decide)
  · exact hsame .screen (by decide)

end Machine

end Chip8
