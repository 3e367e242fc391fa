import Chip8.Proofs.CallStack
import Chip8.Proofs.StraightLine
import Mathlib.Tactic.IntervalCases

/-! # Diagnosis — why a step does not complete

    A step fails where its program counter is odd, where the word stands for nothing,
    and where the machine refuses the instruction: a routine of the host always, a call
    with a full stack, a return with an empty one, a wait that no press ends.
    `Machine.HaltsWith` lists these causes by the word at the program counter, and
    they are all there are. -/

namespace Chip8

open Opcode

/-! ## Words that stand for nothing -/

namespace Opcode

/-- The words that stand for no instruction. -/
def Undefined (w : Word) : Prop :=
  (family w = 0x5 ∧ n w ≠ 0) ∨
  (family w = 0x8 ∧ (0x8 ≤ (n w).toNat ∧ (n w).toNat ≤ 0xD ∨ (n w).toNat = 0xF)) ∨
  (family w = 0x9 ∧ n w ≠ 0) ∨
  (family w = 0xE ∧ kk w ∉ [0x9E, 0xA1]) ∨
  (family w = 0xF ∧ kk w ∉ [0x07, 0x0A, 0x15, 0x18, 0x1E, 0x29, 0x33, 0x55, 0x65])

theorem family_lt (w : Word) : family w < 16 := by
  have hw := w.isLt
  rw [family]
  omega

theorem n_lt (w : Word) : (n w).toNat < 16 := by
  rw [n, BitVec.toNat_ofNat]
  exact Nat.lt_of_le_of_lt (Nat.mod_le _ _) (Nat.mod_lt _ (by decide))

end Opcode

namespace Instruction

theorem decodeArith_eq_none_iff (w : Word) :
    decodeArith w = none ↔
      0x8 ≤ (n w).toNat ∧ (n w).toNat ≤ 0xD ∨ (n w).toNat = 0xF := by
  have hlt := n_lt w
  rw [decodeArith]
  generalize (n w).toNat = k at hlt ⊢
  interval_cases k <;> simp

theorem decodeSingle_eq_none_iff (w : Word) :
    decodeSingle w = none ↔
      kk w ∉ [0x07#8, 0x0A, 0x15, 0x18, 0x1E, 0x29, 0x33, 0x55, 0x65] := by
  simp only [List.mem_cons, List.not_mem_nil, or_false, ← BitVec.toNat_inj]
  rw [decodeSingle]
  split <;> simp_all

theorem decode_eq_none_iff (w : Word) : decode w = none ↔ Undefined w := by
  have hlt := family_lt w
  rw [decode, Undefined]
  generalize family w = f at hlt ⊢
  interval_cases f <;> simp [decodeArith_eq_none_iff, decodeSingle_eq_none_iff]
  -- the families other than E are settled by their last digit or their low byte
  simp only [← BitVec.toNat_inj]
  split <;> simp_all

/-! ## Words of the instructions that can be refused -/

/-- What is known of a word that stands for an instruction which a machine can refuse. -/
def WordKnown (w : Word) : Instruction → Prop
  | .routine a => family w = 0x0 ∧ w ≠ 0x00E0 ∧ w ≠ 0x00EE ∧ a = nnn w
  | .ret       => w = 0x00EE
  | .call _    => family w = 0x2
  | .loadKey _ => family w = 0xF ∧ kk w = 0x0A
  | _          => True

theorem wordKnown_of_decode {w : Word} {i : Instruction} (h : decode w = some i) :
    i.WordKnown w := by
  have hlt := family_lt w
  rw [decode] at h
  generalize hf : family w = f at hlt h
  interval_cases f <;> simp only at h
  case «0» =>
    obtain rfl := Option.some.inj h
    split
    · trivial
    · split
      · assumption
      · exact ⟨hf, ‹_›, ‹_›, rfl⟩
  case «2» =>
    obtain rfl := Option.some.inj h
    exact hf
  case «8» =>
    rw [decodeArith] at h
    split at h <;> cases h <;> trivial
  case «15» =>
    rw [decodeSingle] at h
    split at h <;> cases h <;> first | trivial | exact ⟨hf, BitVec.eq_of_toNat_eq ‹_›⟩
  case «5» | «9» | «14» => split at h <;> cases h <;> trivial
  all_goals
    obtain rfl := Option.some.inj h
    trivial

theorem decode_routine {w : Word} (hfamily : family w = 0x0) (hclear : w ≠ 0x00E0)
    (hret : w ≠ 0x00EE) : decode w = some (.routine (nnn w)) := by
  simp only [decode, hfamily]
  rw [if_neg hclear, if_neg hret]

theorem decode_call {w : Word} (hfamily : family w = 0x2) :
    decode w = some (.call (nnn w)) := by
  simp only [decode, hfamily]

theorem decode_loadKey {w : Word} (hfamily : family w = 0xF) (hkk : kk w = 0x0A) :
    decode w = some (.loadKey (x w)) := by
  simp only [decode, hfamily, decodeSingle, hkk]
  rfl

/-- The word of a routine is its address. -/
theorem encode_routine {w : Word} (h : family w = 0x0) : (routine (nnn w)).encode = w := by
  have hw : w.toNat < 4096 := by
    rw [family] at h
    omega
  show ofAddress 0x0 (wrap w) = w
  rw [ofAddress_wrap (by decide), ofAddress_zero, wrap_of_lt hw]

end Instruction

/-! ## What a machine refuses -/

namespace Machine

variable (m : Machine)

theorem perform_routine (a : Word) :
    (m.perform (.routine a)).1 =
      .error (.fault (.unsupportedInstruction (Instruction.routine a).encode m.registers.pc)) := rfl

theorem perform_loadKey (x : Byte) :
    (m.perform (.loadKey x)).1 =
      match m.keypad.await.1 with
      | .pressed _ => .ok ()
      | .closed    => .error (.fault (.inputClosed m.registers.pc))
      | .silent    => .error .waiting := by
  simp only [perform, execute]
  rcases m.keypad.await with ⟨answer, keypad⟩
  cases answer <;> rfl

end Machine

/-! ## The diagnosis -/

namespace Machine

/-- The word at the program counter. -/
def word (m : Machine) : Word := m.memory.readWord m.registers.pc

/-- Why the next step does not complete. -/
inductive HaltsWith (m : Machine) : Halt → Prop where
  | misaligned (odd : m.registers.pc.toNat % 2 = 1) :
      HaltsWith m (.fault (.misalignedProgramCounter m.registers.pc))
  | unknown (even : m.registers.pc.toNat % 2 = 0) (undefined : Undefined m.word) :
      HaltsWith m (.fault (.unknownOpcode m.word m.registers.pc))
  | unsupported (even : m.registers.pc.toNat % 2 = 0) (zero : family m.word = 0x0)
      (clear : m.word ≠ 0x00E0) (ret : m.word ≠ 0x00EE) :
      HaltsWith m (.fault (.unsupportedInstruction m.word m.registers.pc))
  | overflow (even : m.registers.pc.toNat % 2 = 0) (call : family m.word = 0x2)
      (full : m.registers.stack.length = 16) :
      HaltsWith m (.fault (.stackOverflow m.registers.pc))
  | underflow (even : m.registers.pc.toNat % 2 = 0) (ret : m.word = 0x00EE)
      (empty : m.registers.stack.length = 0) :
      HaltsWith m (.fault (.stackUnderflow m.registers.pc))
  | inputClosed (even : m.registers.pc.toNat % 2 = 0)
      (wait : family m.word = 0xF ∧ kk m.word = 0x0A) (closed : m.keypad.await.1 = .closed) :
      HaltsWith m (.fault (.inputClosed m.registers.pc))
  /-- Nothing has failed, but the step still waits and gives no result yet. -/
  | waiting (even : m.registers.pc.toNat % 2 = 0)
      (wait : family m.word = 0xF ∧ kk m.word = 0x0A) (silent : m.keypad.await.1 = .silent) :
      HaltsWith m .waiting

theorem step_of_odd {m : Machine} (h : m.registers.pc.toNat % 2 = 1) :
    (m.step).1 = .error (.fault (.misalignedProgramCounter m.registers.pc)) := by
  simp only [step, fetch]
  rw [if_pos (by omega)]

/-- At an even program counter the word there is fetched. -/
theorem fetch_of_even {m : Machine} (h : m.registers.pc.toNat % 2 = 0) :
    m.fetch = match Instruction.decode m.word with
      | some i => .ok (m.word, i)
      | none   => .error (.unknownOpcode m.word m.registers.pc) := by
  rw [fetch]
  exact if_neg (by omega)

theorem step_of_decode_none {m : Machine} (heven : m.registers.pc.toNat % 2 = 0)
    (h : Instruction.decode m.word = none) :
    (m.step).1 = .error (.fault (.unknownOpcode m.word m.registers.pc)) := by
  simp only [step, fetch_of_even heven, h]

theorem step_of_decode {m : Machine} {i : Instruction} (heven : m.registers.pc.toNat % 2 = 0)
    (h : Instruction.decode m.word = some i) : m.step = m.perform i := by
  simp only [step, fetch_of_even heven, h]

/-- What the machine refuses, the word tells. -/
theorem haltsWith_of_perform {m : Machine} {i : Instruction} {halt : Halt}
    (hdepth : m.registers.stack.length ≤ stackDepth) (heven : m.registers.pc.toNat % 2 = 0)
    (hdecode : Instruction.decode m.word = some i) (h : (m.perform i).1 = .error halt) :
    m.HaltsWith halt := by
  have hword := Instruction.wordKnown_of_decode hdecode
  cases i with
  | routine a =>
      obtain ⟨hzero, hclear, hret, rfl⟩ := hword
      rw [perform_routine, Instruction.encode_routine hzero] at h
      cases h
      exact .unsupported heven hzero hclear hret
  | ret =>
      rw [perform_ret] at h
      split at h <;> cases h
      exact .underflow heven hword ‹_›
  | call a =>
      rw [perform_call] at h
      split at h <;> cases h
      exact .overflow heven hword (Nat.le_antisymm hdepth ‹_›)
  | loadKey x =>
      rw [perform_loadKey] at h
      split at h <;> cases h
      · exact .inputClosed heven hword ‹_›
      · exact .waiting heven hword ‹_›
  -- whatever else the word stands for completes
  | _ => cases h

theorem step_of_haltsWith {m : Machine} {halt : Halt} (h : m.HaltsWith halt) :
    (m.step).1 = .error halt := by
  cases h with
  | misaligned odd => exact step_of_odd odd
  | unknown even undefined =>
      exact step_of_decode_none even ((Instruction.decode_eq_none_iff _).mpr undefined)
  | unsupported even zero clear ret =>
      rw [step_of_decode even (Instruction.decode_routine zero clear ret), perform_routine,
        Instruction.encode_routine zero]
  | overflow even call full =>
      rw [step_of_decode even (Instruction.decode_call call), perform_call]
      exact if_pos (Nat.le_of_eq full.symm)
  | underflow even ret empty =>
      have hdecode : Instruction.decode m.word = some .ret := by rw [ret]; rfl
      rw [step_of_decode even hdecode, perform_ret, if_pos empty]
  | inputClosed even wait closed =>
      rw [step_of_decode even (Instruction.decode_loadKey wait.1 wait.2), perform_loadKey, closed]
  | waiting even wait silent =>
      rw [step_of_decode even (Instruction.decode_loadKey wait.1 wait.2), perform_loadKey, silent]

theorem haltsWith_of_step {m : Machine} {halt : Halt}
    (hdepth : m.registers.stack.length ≤ stackDepth) (h : (m.step).1 = .error halt) :
    m.HaltsWith halt := by
  rcases Nat.mod_two_eq_zero_or_one m.registers.pc.toNat with heven | hodd
  · cases hdecode : Instruction.decode m.word with
    | none =>
        rw [step_of_decode_none heven hdecode] at h
        cases h
        exact .unknown heven ((Instruction.decode_eq_none_iff _).mp hdecode)
    | some i =>
        rw [step_of_decode heven hdecode] at h
        exact haltsWith_of_perform hdepth heven hdecode h
  · rw [step_of_odd hodd] at h
    cases h
    exact .misaligned hodd

/-- **DIAGNOSIS**: in every machine that comes about, a step fails for exactly the
    reasons listed, with the fault that names the address and the word, and completes in
    every other case. -/
theorem step_diagnosis {m : Machine} (h : m.Reachable) :
    (∀ halt, (m.step).1 = .error halt ↔ m.HaltsWith halt) ∧
    ((m.step).1 = .ok () ↔ ∀ halt, ¬ m.HaltsWith halt) := by
  have hiff : ∀ halt, (m.step).1 = .error halt ↔ m.HaltsWith halt := fun halt =>
    ⟨haltsWith_of_step h.bounded.depth, step_of_haltsWith⟩
  refine ⟨hiff, fun hok halt hhalt => ?_, fun hnone => ?_⟩
  · rw [step_of_haltsWith hhalt] at hok
    cases hok
  · cases hs : (m.step).1 with
    | ok => rfl
    | error halt => exact absurd ((hiff halt).mp hs) (hnone halt)

/-- A wait without a keypad, loaded and stepped. -/
theorem step_diagnosis_wait :
    ∃ m, load (Keystream.source 0) (Program.image [.loadKey 3]) .absent .standard = .ok m ∧
      m.Reachable ∧ m.word = 0xF30A ∧ (m.step).1 = .error (.fault (.inputClosed 0x200)) := by
  obtain ⟨m, hload, hdue⟩ :=
    exists_load (p := [.loadKey 3]) (by decide) (Keystream.source 0) .absent .standard
  obtain ⟨memory, -, hm⟩ := eq_of_load hload
  have hpc : m.registers.pc = 0x200 := by rw [hm]; rfl
  have hkeypad : m.keypad = .absent := by rw [hm]
  have hword : m.word = 0xF30A := by
    rw [word, hpc]
    exact (hdue.code.cons (by decide)).1
  have hreach : m.Reachable := .loaded hload
  refine ⟨m, hload, hreach, hword, ((step_diagnosis hreach).1 _).mpr ?_⟩
  rw [← hpc]
  exact .inputClosed (by rw [hpc]; rfl) (by rw [hword]; decide) (by rw [hkeypad]; rfl)

end Machine

end Chip8
