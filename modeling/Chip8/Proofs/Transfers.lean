import Chip8.Proofs.Effects

/-! # Transfers — bytes stored in memory, and registers loaded back

    Registers, and the digits of a number, are stored one cell after the other around the end
    of memory.  No more than sixteen cells are written, so none is written twice, and every
    byte is found where it was put: `Memory.byteFrom_writeRange`.  Loading goes through the same
    cells in the same order.  So registers that were stored come back, whatever happens in
    between, as long as the cells keep their bytes and the address register still names the
    first of them. -/

namespace Chip8

/-! ## Cells behind an address -/

/-- Less than a round of memory behind an address, every place has a cell of its own. -/
theorem cellFrom_inj {a : Word} {j k : Nat} (hj : j < 4096) (hk : k < 4096)
    (h : cellFrom a j = cellFrom a k) : j = k := by
  have hplaces : (a.toNat + j) % 4096 = (a.toNat + k) % 4096 := congrArg Fin.val h
  omega

/-- Addresses of the same cell have the same cells behind them. -/
theorem cellFrom_congr {a b : Word} (h : a.toNat % 4096 = b.toNat % 4096) (k : Nat) :
    cellFrom a k = cellFrom b k := by
  apply Fin.ext
  show (a.toNat + k) % 4096 = (b.toNat + k) % 4096
  omega

namespace Memory

/-- The byte in the cell that lies a number of places behind an address. -/
def byteFrom (m : Memory) (a : Word) (k : Nat) : Byte := m.cells.get (cellFrom a k)

theorem read_offset_eq_byteFrom (m : Memory) (a : Word) (k : Nat) :
    m.read (offset a (BitVec.ofNat 16 k)) = m.byteFrom a k := m.read_offset a k

/-- What is written within a round of memory is not written over. -/
theorem byteFrom_writeFrom {m : Memory} {a : Word} {i k : Nat} {bytes : List Byte}
    (hround : i + bytes.length ≤ 4096) (hk : k < bytes.length) :
    (m.writeFrom a i bytes).byteFrom a (i + k) = bytes[k] := by
  induction bytes generalizing m i k with
  | nil => cases hk
  | cons b r ih =>
      rw [List.length_cons] at hround hk
      rw [writeFrom]
      cases k with
      | zero =>
          -- the bytes that follow go to other cells
          have hothers : ∀ k < r.length, cell (offset a (BitVec.ofNat 16 (i + 1 + k))) ≠
              cell (offset a (BitVec.ofNat 16 i)) := by
            intro k hk hcell
            rw [cell_offset, cell_offset] at hcell
            have hplace : i + 1 + k = i := cellFrom_inj (by omega) (by omega) hcell
            omega
          show ((m.write (offset a (BitVec.ofNat 16 i)) b).writeFrom a (i + 1) r).byteFrom a i = b
          rw [← read_offset_eq_byteFrom, read_writeFrom hothers, read_write, if_pos rfl]
      | succ k =>
          rw [show i + (k + 1) = i + 1 + k by omega]
          exact ih (by omega) (by omega)

/-- Bytes that are written are found where they were written to. -/
theorem byteFrom_writeRange (m : Memory) (a : Word) {bytes : List Byte} {k : Nat}
    (hround : bytes.length ≤ 4096) (hk : k < bytes.length) :
    (m.writeRange a bytes).byteFrom a k = bytes[k] := by
  have hbyte := byteFrom_writeFrom (m := m) (a := a) (i := 0) (by omega) hk
  rwa [Nat.zero_add] at hbyte

end Memory

/-! ## Registers and digits -/

namespace Registers

theorem getElem?_first (r : Registers) {count : Nat} {s : Fin 16} (h : s.val < count) :
    (r.first count)[s.val]? = some (r.v.get s) := by
  have hs : s.val < r.v.toList.length := by
    rw [Vector.length_toList]
    exact s.isLt
  rw [first, List.getElem?_take_of_lt h, List.getElem?_eq_getElem hs, Vector.getElem_toList]
  rfl

end Registers

/-- The digits of a byte, hundreds first. -/
theorem exists_decimalDigits (b : Byte) :
    ∃ h t o : Byte, decimalDigits b = [h, t, o] ∧ h.toNat ≤ 9 ∧ t.toNat ≤ 9 ∧ o.toNat ≤ 9 ∧
      100 * h.toNat + 10 * t.toNat + o.toNat = b.toNat := by
  have hb := b.isLt
  have hh : (b / 100).toNat = b.toNat / 100 := BitVec.toNat_udiv
  have ht : (b / 10 % 10).toNat = b.toNat / 10 % 10 := by
    rw [BitVec.toNat_umod, BitVec.toNat_udiv]
    rfl
  have ho : (b % 10).toNat = b.toNat % 10 := BitVec.toNat_umod
  refine ⟨b / 100, b / 10 % 10, b % 10, rfl, ?_, ?_, ?_, ?_⟩
  · omega
  · omega
  · omega
  · omega

namespace Machine

/-! ## Instructions that transfer -/

/-- The instruction completes, goes on at the next word and changes none but the listed
    parts. -/
structure Affects (m : Machine) (i : Instruction) (parts : List Part) : Prop where
  completes : (m.perform i).1 = .ok ()
  next : (m.perform i).2.registers.pc = offset m.registers.pc 2
  only : m.ChangesOnly parts (m.perform i).2

theorem affects_of_completes {m : Machine} {i : Instruction} (hi : i.straight = true)
    (h : (m.perform i).1 = .ok ()) : m.Affects i (m.reach i) := by
  have hperform : m.perform i = (.ok (), (m.perform i).2) := Prod.ext h rfl
  exact ⟨h, perform_straight hi hperform, perform_changesOnly hperform⟩

/-- No instruction stores more than the sixteen registers. -/
theorem length_stored_le (m : Machine) (i : Instruction) : (m.stored i).length ≤ 16 := by
  have hnone : ([] : List Byte).length ≤ 16 := Nat.zero_le 16
  cases i with
  | storeDecimal x =>
      show 3 ≤ 16
      omega
  | storeRegisters x =>
      rw [stored, Registers.length_first _ (BulkTransfer.count_le _ x)]
      exact BulkTransfer.count_le _ x
  | _ => exact hnone

/-- The bytes that an instruction stores are in the cells from the address register on. -/
theorem byteFrom_perform {m : Machine} {i : Instruction} {k : Nat} {b : Byte}
    (hb : (m.stored i)[k]? = some b) :
    (m.perform i).2.memory.byteFrom m.registers.index k = b := by
  have hround : (m.stored i).length ≤ 4096 := Nat.le_trans (m.length_stored_le i) (by omega)
  obtain ⟨hk, hbyte⟩ := List.getElem?_eq_some_iff.mp hb
  rw [perform_memory, Memory.byteFrom_writeRange _ _ hround hk, hbyte]

/-- Stored registers are in the cells from the address register on. -/
theorem byteFrom_storeRegisters (m : Machine) (x : Byte) {s : Fin 16}
    (h : s.val < m.config.bulk.count x) :
    (m.perform (.storeRegisters x)).2.memory.byteFrom m.registers.index s.val =
      m.registers.v.get s :=
  byteFrom_perform (m.registers.getElem?_first h)

/-- Loaded registers are what those cells hold. -/
theorem get_loadRegisters (m : Machine) (x : Byte) {s : Fin 16}
    (h : s.val < m.config.bulk.count x) :
    (m.perform (.loadRegisters x)).2.registers.v.get s =
      m.memory.byteFrom m.registers.index s.val := by
  rw [← Memory.read_offset_eq_byteFrom]
  exact (Registers.get_setFirst _ (BulkTransfer.count_le _ x) _ s).trans (if_pos h)

/-- The cells from the address register on hold the digits of a stored number. -/
theorem exists_digits_stored (m : Machine) (x : Byte) :
    ∃ h t o : Byte, h.toNat ≤ 9 ∧ t.toNat ≤ 9 ∧ o.toNat ≤ 9 ∧
      100 * h.toNat + 10 * t.toNat + o.toNat = (m.registers.get x).toNat ∧
      ∀ k b, ([h, t, o] : List Byte)[k]? = some b →
        (m.perform (.storeDecimal x)).2.memory.byteFrom m.registers.index k = b := by
  obtain ⟨h, t, o, hdigits, hh, ht, ho, hsum⟩ := exists_decimalDigits (m.registers.get x)
  refine ⟨h, t, o, hh, ht, ho, hsum, ?_⟩
  intro k b hb
  refine byteFrom_perform ?_
  rw [stored, hdigits, hb]

/-- Stored registers come back, if their cells still hold them and the address register
    still names the first one. -/
theorem get_load_after_store (m : Machine) (x : Byte) {later : Machine}
    (hconfig : later.config = m.config)
    (hindex : later.registers.index.toNat % 4096 = m.registers.index.toNat % 4096)
    (hcells : ∀ k < m.config.bulk.count x,
      later.memory.byteFrom m.registers.index k =
        (m.perform (.storeRegisters x)).2.memory.byteFrom m.registers.index k)
    {s : Fin 16} (h : s.val < m.config.bulk.count x) :
    (later.perform (.loadRegisters x)).2.registers.v.get s = m.registers.v.get s := by
  have hlater : s.val < later.config.bulk.count x := by rwa [hconfig]
  calc (later.perform (.loadRegisters x)).2.registers.v.get s
      = later.memory.byteFrom later.registers.index s.val := later.get_loadRegisters x hlater
    _ = later.memory.byteFrom m.registers.index s.val :=
        congrArg later.memory.cells.get (cellFrom_congr hindex s.val)
    _ = (m.perform (.storeRegisters x)).2.memory.byteFrom m.registers.index s.val :=
        hcells s.val h
    _ = m.registers.v.get s := m.byteFrom_storeRegisters x h

/-- **TRANSFERS**: in every machine, with either setting and any operand, the number of
    registers that are moved is sixteen, or one more than the index of the one that is named.
    Storing puts each of them in its cell behind the address register and loading takes it
    from there, with the address register and everything else but the program counter left
    alone.  So stored registers are loaded back after any actions that leave the address
    register on the same cell and the bytes in their cells.  A number is stored as its three
    decimal digits in three such cells. -/
theorem transfers_through_memory (m : Machine) (x : Byte) :
    let count := m.config.bulk.count x
    let index := m.registers.index
    let stored := (m.perform (.storeRegisters x)).2
    let loaded := (m.perform (.loadRegisters x)).2
    let shown := (m.perform (.storeDecimal x)).2
    (m.config.bulk = .allRegisters → count = 16) ∧
    (m.config.bulk = .throughX → count = x.toNat % 16 + 1) ∧
    (m.Affects (.storeRegisters x) (m.cellParts count) ∧ stored.registers.index = index ∧
      ∀ s : Fin 16, s.val < count →
        stored.memory.byteFrom index s.val = m.registers.v.get s) ∧
    (m.Affects (.loadRegisters x) (firstParts count) ∧ loaded.registers.index = index ∧
      ∀ s : Fin 16, s.val < count →
        loaded.registers.v.get s = m.memory.byteFrom index s.val) ∧
    (∀ actions : List Action,
      let later := stored.after actions
      later.registers.index.toNat % 4096 = index.toNat % 4096 →
      (∀ k < count, later.memory.byteFrom index k = stored.memory.byteFrom index k) →
      (later.perform (.loadRegisters x)).1 = .ok () ∧
        ∀ s : Fin 16, s.val < count →
          (later.perform (.loadRegisters x)).2.registers.v.get s = m.registers.v.get s) ∧
    (m.Affects (.storeDecimal x) (m.cellParts 3) ∧
      ∃ h t o : Byte, h.toNat ≤ 9 ∧ t.toNat ≤ 9 ∧ o.toNat ≤ 9 ∧
        100 * h.toNat + 10 * t.toNat + o.toNat = (m.registers.get x).toNat ∧
        shown.memory.byteFrom index 0 = h ∧ shown.memory.byteFrom index 1 = t ∧
        shown.memory.byteFrom index 2 = o) := by
  intro count index stored loaded shown
  refine ⟨?_, ?_, ?_, ?_, ?_, ?_⟩
  · intro hbulk
    show m.config.bulk.count x = 16
    rw [hbulk]
    rfl
  · intro hbulk
    show m.config.bulk.count x = x.toNat % 16 + 1
    rw [hbulk]
    rfl
  · exact ⟨affects_of_completes rfl rfl, rfl, fun s hs => m.byteFrom_storeRegisters x hs⟩
  · exact ⟨affects_of_completes rfl rfl, rfl, fun s hs => m.get_loadRegisters x hs⟩
  · intro actions later hindex hcells
    have hconfig : later.config = m.config := stored.config_after actions
    exact ⟨rfl, fun s hs => m.get_load_after_store x hconfig hindex hcells hs⟩
  · obtain ⟨h, t, o, hh, ht, ho, hsum, hdigits⟩ := m.exists_digits_stored x
    exact ⟨affects_of_completes rfl rfl, h, t, o, hh, ht, ho, hsum, hdigits 0 h rfl,
      hdigits 1 t rfl, hdigits 2 o rfl⟩

/-- Three registers stored from cell 4094 on, the second of them overwritten, the address
    register set to another word that names that cell, and the registers loaded back. -/
theorem transfers_through_memory_around_end :
    let m := { idle .absent with
      registers := { Registers.initial.set 1 254 with index := 0xFFFE }
      config := { Config.standard with bulk := .throughX } }
    let stored := (m.perform (.storeRegisters 0x12)).2
    let later := stored.after [.perform (.loadByte 1 7), .perform (.loadIndex 0x0FFE)]
    m.config.bulk.count 0x12 = 3 ∧ later.registers.v.get 1 = 7 ∧
      stored.memory.byteFrom m.registers.index 1 = 254 ∧
      (later.registers.index.toNat % 4096 = m.registers.index.toNat % 4096 ∧
        ∀ k < 3, later.memory.byteFrom m.registers.index k =
          stored.memory.byteFrom m.registers.index k) ∧
      (later.perform (.loadRegisters 0x12)).2.registers.v.get 1 = 254 := by
  intro m stored later
  obtain ⟨-, hcount, ⟨-, -, hstored⟩, -, hback, -⟩ := transfers_through_memory m 0x12
  have hthree : m.config.bulk.count 0x12 = 3 := hcount rfl
  have hone : (1 : Fin 16).val < m.config.bulk.count 0x12 := by
    rw [hthree]
    decide
  have hindex : later.registers.index.toNat % 4096 = m.registers.index.toNat % 4096 := by
    show (0x0FFE : Word).toNat % 4096 = (0xFFFE : Word).toNat % 4096
    decide
  have hcells : ∀ k < m.config.bulk.count 0x12,
      later.memory.byteFrom m.registers.index k =
        stored.memory.byteFrom m.registers.index k := fun _ _ => rfl
  obtain ⟨-, hrestored⟩ := hback _ hindex hcells
  exact ⟨hthree, rfl, hstored 1 hone, ⟨hindex, hthree ▸ hcells⟩, hrestored 1 hone⟩

end Machine

end Chip8
