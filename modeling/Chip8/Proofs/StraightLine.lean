import Chip8.Proofs.Footprint
import Chip8.Proofs.Relisting
import Chip8.Shell.Keystream

/-! # Straight lines — a loaded program against its instructions in a row

    An instruction that neither jumps nor skips goes on at the next word.  While a
    program of such instructions runs, the program counter stands at the word of the
    instruction that is due, and as long as no instruction writes into the program,
    that word is the one that was loaded.  So fetching and performing step by step is
    performing the instructions in a row, up to the first that does not complete. -/

namespace Chip8

/-! ## Instructions in a row -/

/-- Whether the program goes on at the next word whenever the instruction completes. -/
def Instruction.straight : Instruction → Bool
  | .jump _     => false
  | .call _     => false
  | .ret        => false
  | .jumpPlus _ => false
  | .skip _     => false
  | _           => true

namespace Machine

/-- Performs the instructions of a program in a row after `done` others, ending with
    the first that does not complete: how many have completed, and how the last one
    ended. -/
def performFrom (done : Nat) : Program → Machine → Nat × Except Halt Unit × Machine
  | [],     m => (done, .ok (), m)
  | i :: p, m =>
    match m.perform i with
    | (.ok (), m)   => performFrom (done + 1) p m
    | (.error h, m) => (done, .error h, m)

/-- Performs the instructions of a program in a row. -/
def performAll (p : Program) (m : Machine) : Nat × Except Halt Unit × Machine :=
  performFrom 0 p m

/-- No instruction that is executed when a program is performed in a row writes a cell
    of the first `n` words from the program start on. -/
def Spares (n : Nat) : Program → Machine → Prop
  | [],     _ => True
  | i :: p, m =>
    (∀ c ∈ m.written i, ¬ (0x200 ≤ c.val ∧ c.val < 0x200 + 2 * n)) ∧
      match m.perform i with
      | (.ok (), m)   => Spares n p m
      | (.error _, _) => True

/-- A straight instruction goes on at the next word. -/
theorem execute_straight {m after : Machine} {i : Instruction} {flow : Flow}
    (hi : i.straight = true) (h : m.execute i = (.ok flow, after)) : flow = .next := by
  cases i with
  | routine a => cases h
  | ret => exact Bool.noConfusion hi
  | jump a => exact Bool.noConfusion hi
  | call a => exact Bool.noConfusion hi
  | jumpPlus a => exact Bool.noConfusion hi
  | skip t => exact Bool.noConfusion hi
  | loadKey x =>
      simp only [execute] at h
      split at h
      · exact (Except.ok.inj (Prod.mk.inj h).1).symm
      · cases h
      · cases h
  | _ => exact (Except.ok.inj (Prod.mk.inj h).1).symm

theorem perform_straight {m after : Machine} {i : Instruction}
    (hi : i.straight = true) (h : m.perform i = (.ok (), after)) :
    after.registers.pc = offset m.registers.pc 2 := by
  rcases he : m.execute i with ⟨result, changed⟩
  simp only [perform, he] at h
  cases result with
  | error halt => cases h
  | ok flow =>
      have hflow : flow = .next := execute_straight hi he
      rw [← (Prod.mk.inj h).2, hflow]
      rfl

end Machine

/-! ## A program in memory -/

namespace Memory

/-- The cells from `a` on hold the bytes of an image. -/
def Holds (m : Memory) (a : Nat) (image : List Byte) : Prop :=
  ∀ k, (hk : k < image.length) → m.read (BitVec.ofNat 16 (a + k)) = image[k]

theorem cell_ofNat {a : Nat} (h : a < 4096) : (cell (BitVec.ofNat 16 a)).val = a := by
  simp only [cell, BitVec.toNat_ofNat]
  omega

/-- A loaded memory holds the image from the program start on. -/
theorem holds_of_load {image : List Byte} {m : Memory} (h : load image = .ok m) :
    m.Holds 0x200 image := by
  intro k hk
  have hfits : image.length ≤ 3584 := (load_eq_ok_iff.mp h).1
  have hcell : (cell (BitVec.ofNat 16 (0x200 + k))).val = 0x200 + k := cell_ofNat (by omega)
  rw [read_of_load h, hcell, if_pos (Nat.le_add_right _ _), Nat.add_sub_cancel_left,
    List.getElem?_eq_getElem hk]
  rfl

/-- Two bytes of an image make a word in memory. -/
theorem Holds.readWord {m : Memory} {a k : Nat} {image : List Byte} (h : m.Holds a image)
    (hk : k + 1 < image.length) (ha : a + k + 1 < 4096) :
    m.readWord (BitVec.ofNat 16 (a + k)) = bigEndian image[k] image[k + 1] := by
  have hnext : offset (BitVec.ofNat 16 (a + k)) 1 = BitVec.ofNat 16 (a + (k + 1)) := by
    apply BitVec.eq_of_toNat_eq
    rw [toNat_offset, BitVec.toNat_ofNat, BitVec.toNat_ofNat, show (1 : Word).toNat = 1 from rfl]
    omega
  rw [Memory.readWord, hnext, h k (by omega), h (k + 1) hk]

/-- The image of a program in memory begins with the word of its first instruction. -/
theorem Holds.cons {m : Memory} {a : Nat} {i : Instruction} {p : Program}
    (h : m.Holds a (Program.image (i :: p))) (ha : a + 1 < 4096) :
    m.readWord (BitVec.ofNat 16 a) = i.encode ∧ m.Holds (a + 2) p.image := by
  refine ⟨?_, fun k hk => ?_⟩
  · have hword := h.readWord (k := 0) (by simp) ha
    rw [Nat.add_zero] at hword
    exact hword.trans (bigEndian_highByte_lowByte i.encode)
  · have hbyte := h (k + 2) (by simpa using hk)
    rwa [show a + (k + 2) = a + 2 + k by omega] at hbyte

/-- Memory that reads the same holds the same. -/
theorem Holds.of_read_eq {m m' : Memory} {a : Nat} {image : List Byte} (h : m.Holds a image)
    (heq : ∀ k < image.length,
      m'.read (BitVec.ofNat 16 (a + k)) = m.read (BitVec.ofNat 16 (a + k))) :
    m'.Holds a image :=
  fun k hk => (heq k hk).trans (h k hk)

theorem Holds.append_left {m : Memory} {a : Nat} {s t : List Byte} (h : m.Holds a (s ++ t)) :
    m.Holds a s := by
  intro k hk
  rw [h k (by rw [List.length_append]; omega), List.getElem_append_left hk]

end Memory

/-! ## The invariant of a run -/

namespace Machine

/-- A program is due: the program counter stands at `a`, around the end of memory, and
    the program is in memory from there on. -/
structure Due (a : Nat) (p : Program) (m : Machine) : Prop where
  pc : m.registers.pc.toNat = a % 4096
  code : m.memory.Holds a p.image

/-- The instruction that is due is the one that is fetched, if its word stands for it. -/
theorem Due.fetch {a : Nat} {i : Instruction} {p : Program} {m : Machine}
    (h : Due a (i :: p) m) (ha : a + 1 < 4096) (heven : a % 2 = 0) (hi : i.reduced = i) :
    m.fetch = .ok (i.encode, i) := by
  -- with an instruction still due, the program counter has not gone around
  have hpc : m.registers.pc = BitVec.ofNat 16 a := by
    apply BitVec.eq_of_toNat_eq
    rw [h.pc, BitVec.toNat_ofNat]
    omega
  have hdecode : Instruction.decode i.encode = some i := by
    rw [i.decode_encode, hi]
  have hword : m.memory.readWord m.registers.pc = i.encode := by
    rw [hpc]
    exact (h.code.cons ha).1
  have haligned : ¬ m.registers.pc.toNat % 2 ≠ 0 := by
    rw [h.pc]
    omega
  simp only [Machine.fetch, if_neg haligned, hword, hdecode]

theorem Due.step {a : Nat} {i : Instruction} {p : Program} {m : Machine}
    (h : Due a (i :: p) m) (ha : a + 1 < 4096) (heven : a % 2 = 0) (hi : i.reduced = i) :
    m.step = m.perform i := by
  simp only [Machine.step, h.fetch ha heven hi]

/-- Performing a straight instruction that spares the rest of the program makes the
    rest due. -/
theorem Due.perform {a : Nat} {i : Instruction} {p : Program} {m after : Machine}
    (h : Due a (i :: p) m) (ha : a + 1 < 4096) (hend : a + 2 + 2 * p.length ≤ 4096)
    (hi : i.straight = true)
    (hspares : ∀ c ∈ m.written i, ¬ (a + 2 ≤ c.val ∧ c.val < a + 2 + 2 * p.length))
    (hdone : m.perform i = (.ok (), after)) : Due (a + 2) p after := by
  refine ⟨?_, (h.code.cons ha).2.of_read_eq fun k hk => ?_⟩
  -- behind the last cell of memory the program counter stands at zero
  · rw [perform_straight hi hdone, toNat_offset, h.pc, show (2 : Word).toNat = 2 from rfl]
    omega
  · rw [Program.length_image] at hk
    have hcell : (cell (BitVec.ofNat 16 (a + 2 + k))).val = a + 2 + k :=
      Memory.cell_ofNat (by omega)
    have hafter : after = (m.perform i).2 := by rw [hdone]
    rw [hafter]
    refine perform_read fun hmem => hspares _ hmem ?_
    rw [hcell]
    omega

/-- A straight program that is due and that its own instructions spare runs as its
    instructions in a row. -/
theorem stepsFrom_eq_performFrom {p : Program} {m : Machine} {a n done : Nat}
    (hself : ∀ i ∈ p, i.reduced = i) (hstraight : ∀ i ∈ p, i.straight = true)
    (heven : a % 2 = 0) (hstart : 0x200 ≤ a) (hend : a + 2 * p.length ≤ 0x200 + 2 * n)
    (hfits : 0x200 + 2 * n ≤ 4096) (hdue : Due a p m) (hspares : Spares n p m) :
    stepsFrom done p.length m = performFrom done p m := by
  -- the place moves on by a word with each instruction, while the limit stays
  induction p generalizing m a done with
  | nil => rfl
  | cons i p ih =>
      rw [List.length_cons] at hend ⊢
      have hstep : m.step = m.perform i :=
        hdue.step (by omega) heven (hself i (by simp))
      obtain ⟨hwritten, hrest⟩ := hspares
      rw [stepsFrom, performFrom, hstep]
      rcases hp : m.perform i with ⟨result, after⟩
      cases result with
      | error halt => rfl
      | ok =>
          rw [hp] at hrest
          -- the rest of the program lies within the limit
          have hlater : ∀ c ∈ m.written i, ¬ (a + 2 ≤ c.val ∧ c.val < a + 2 + 2 * p.length) := by
            intro c hc hin
            exact hwritten c hc ⟨by omega, by omega⟩
          have hnext : Due (a + 2) p after :=
            hdue.perform (by omega) (by omega) (hstraight i (by simp)) hlater hp
          exact ih (fun j hj => hself j (by simp [hj])) (fun j hj => hstraight j (by simp [hj]))
            (by omega) (by omega) (by omega) hnext hrest

end Machine

/-! ## From the source to the last step -/

/-- A program without jumps, calls, returns and skips, in range and small enough to be
    loaded.  The calls of routines `0E0` and `0EE` are left out: their words mean
    something else. -/
structure Program.StraightLine (p : Program) : Prop where
  fits : p.length ≤ 1792
  inRange : ∀ i ∈ p, i.InRange
  straight : ∀ i ∈ p, i.straight = true
  ownWord : ∀ i ∈ p, i ≠ .routine 0x0E0 ∧ i ≠ .routine 0x0EE

theorem Program.StraightLine.take {p : Program} (h : p.StraightLine) (k : Nat) :
    StraightLine (p.take k) where
  fits := Nat.le_trans (List.length_take_le' k p) h.fits
  inRange := fun i hi => h.inRange i (List.mem_of_mem_take hi)
  straight := fun i hi => h.straight i (List.mem_of_mem_take hi)
  ownWord := fun i hi => h.ownWord i (List.mem_of_mem_take hi)

/-- Every instruction of a straight-line program is the one that its word stands for. -/
theorem Program.StraightLine.reduced_eq {p : Program} (h : p.StraightLine) {i : Instruction}
    (hi : i ∈ p) : i.reduced = i := by
  obtain ⟨hclear, hret⟩ := h.ownWord i hi
  exact Instruction.reduced_of_inRange (h.inRange i hi) hclear hret

/-- An image that fits is loaded, and the program counter of the machine that has loaded it
    stands at its first byte. -/
theorem Machine.exists_load_image {image : List Byte} (h : image.length ≤ programCapacity)
    (source : RandomSource) (keypad : Keypad) (config : Config) :
    ∃ m, load source image keypad config = .ok m ∧ m.registers.pc = 0x200 ∧
      m.memory.Holds 0x200 image := by
  obtain ⟨memory, hmemory⟩ : ∃ memory, Memory.load image = .ok memory :=
    ⟨_, Memory.load_eq_ok_iff.mpr ⟨h, rfl⟩⟩
  have hload : load source image keypad config =
      .ok ⟨.initial, memory, .blank, keypad, source.stream config.seed, config⟩ := by
    rw [load, hmemory]
    rfl
  exact ⟨_, hload, rfl, Memory.holds_of_load hmemory⟩

/-- A program that fits is loaded, and is due in the machine that has loaded it. -/
theorem Machine.exists_load {p : Program} (h : p.length ≤ 1792) (source : RandomSource)
    (keypad : Keypad) (config : Config) :
    ∃ m, load source p.image keypad config = .ok m ∧ m.Due 0x200 p := by
  have hfits : p.image.length ≤ programCapacity := by
    rw [Program.length_image, programCapacity]
    omega
  obtain ⟨m, hload, hpc, hcode⟩ := exists_load_image hfits source keypad config
  exact ⟨m, hload, by rw [hpc]; decide, hcode⟩

/-- **STRAIGHT-LINE CORRECTNESS**: the texts of a straight-line program assemble to the
    words of its instructions in a row, and in a machine that has loaded them, with any
    random bytes, keypad and configuration, the first `k` steps are the first `k` instructions in a
    row — the same machine and the same outcome — as long as none of those that are
    executed writes into the program. -/
theorem Program.straight_line_correct {p : Program} (h : p.StraightLine) :
    Source.assemble p.source = .ok p.image ∧
    ∀ source keypad config, ∃ m, Machine.load source p.image keypad config = .ok m ∧
      ∀ k ≤ p.length, m.Spares p.length (p.take k) →
        m.steps k = m.performAll (p.take k) := by
  refine ⟨Source.assemble_source h.inRange, fun source keypad config => ?_⟩
  obtain ⟨m, hload, hdue⟩ := Machine.exists_load h.fits source keypad config
  refine ⟨m, hload, fun k hk hspares => ?_⟩
  have hlength : (p.take k).length = k := List.length_take_of_le hk
  have hcode : m.memory.Holds 0x200 (Program.image (p.take k)) := by
    refine Memory.Holds.append_left (t := Program.image (p.drop k)) ?_
    rw [← Program.image_append, List.take_append_drop]
    exact hdue.code
  have hfits := h.fits
  have hrun : m.steps (p.take k).length = m.performAll (p.take k) :=
    Machine.stepsFrom_eq_performFrom (fun _ hi => (h.take k).reduced_eq hi) (h.take k).straight
      (by decide) (by omega) (by omega) (by omega) ⟨hdue.pc, hcode⟩ hspares
  rwa [hlength] at hrun

/-- Three digits stored around the end of memory spare the program, which ends with a
    call of the host's routine 123: three steps complete and the fourth does not. -/
theorem Program.straight_line_around_end :
    let p : Program := [.loadByte 1 0xFE, .loadIndex 0xFFF, .storeDecimal 1, .routine 0x123]
    Source.assemble p.source = .ok p.image ∧
    ∃ m, Machine.load (Keystream.source 0) p.image .absent .standard = .ok m ∧ m.Spares 4 p ∧
      m.steps 4 = m.performAll p ∧ (m.performAll p).1 = 3 := by
  intro p
  have hline : p.StraightLine := ⟨by decide, by decide, by decide, by decide⟩
  have hspares : ∀ m : Machine, m.Spares 4 p := by
    intro m
    -- only the third instruction writes, and its cells do not depend on the machine
    have hcells : ∀ c ∈ Memory.cellsFrom 0xFFF 3,
        ¬ (0x200 ≤ c.val ∧ c.val < 0x200 + 2 * 4) :=
      List.forall_mem_map.mpr (by decide)
    exact And.intro nofun (And.intro nofun (And.intro hcells (And.intro nofun trivial)))
  obtain ⟨hassemble, hload⟩ := straight_line_correct hline
  obtain ⟨m, hm, hrun⟩ := hload (Keystream.source 0) .absent .standard
  exact ⟨hassemble, m, hm, hspares m, hrun 4 (by decide) (hspares m), rfl⟩

end Chip8
