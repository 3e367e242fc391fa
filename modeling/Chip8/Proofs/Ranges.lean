import Chip8.Machine.Memory

/-! # Ranges — the bytes from an address on, around the end of memory

    A range of memory begins at any 16-bit address and goes around twice on its way: the
    sum of address and place around 65536, and then around the 4096 cells.  The second is
    a divisor of the first, so the `k`-th byte always comes from the cell `k` places
    behind the first one.  The count goes around as well, and there it shows: of a count
    that does not fit in 16 bits only what is left of it there is read. -/

namespace Chip8

/-- The cell that lies a number of places behind the one that an address names, around
    the end of memory. -/
def cellFrom (a : Word) (k : Nat) : Fin 4096 := ⟨(a.toNat + k) % 4096, by omega⟩

/-- Going around at 65536 on the way does not change the cell. -/
theorem cell_offset (a : Word) (k : Nat) :
    cell (offset a (BitVec.ofNat 16 k)) = cellFrom a k := by
  apply Fin.ext
  show (offset a (BitVec.ofNat 16 k)).toNat % 4096 = (a.toNat + k) % 4096
  rw [toNat_offset, BitVec.toNat_ofNat]
  omega

namespace Memory

variable (m : Memory) (a : Word) (count : Nat)

theorem read_offset (k : Nat) : m.read (offset a (BitVec.ofNat 16 k)) = m.cells[cellFrom a k] := by
  simp only [read, cell_offset]

/-- The bytes are as many as the count says, and the `k`-th of them is that of the cell
    `k` places behind the address. -/
def Copied (bytes : List Byte) : Prop :=
  bytes.length = count ∧ ∀ k < count, bytes[k]? = some m.cells[cellFrom a k]

/-- A range is read cell by cell, as far as its count fits in 16 bits. -/
theorem readRange_eq :
    m.readRange a count = (List.range (count % 65536)).map fun k => m.cells[cellFrom a k] := by
  rw [readRange]
  refine List.map_congr_left ?_
  intro k _
  exact m.read_offset a k

theorem length_readRange : (m.readRange a count).length = count % 65536 := by
  rw [readRange_eq, List.length_map, List.length_range]

theorem copied_map_range :
    m.Copied a count ((List.range count).map fun k => m.cells[cellFrom a k]) := by
  constructor
  · rw [List.length_map, List.length_range]
  · intro k hk
    rw [List.getElem?_map, List.getElem?_range hk]
    rfl

/-- **RANGES**: for every memory, every address and every count, reading a range copies,
    each from its cell, as many bytes as are left of the count in 16 bits; so it copies
    as many as it was asked for if and only if the count is below 65536. -/
theorem range_copied :
    m.Copied a (count % 65536) (m.readRange a count) ∧
    (m.Copied a count (m.readRange a count) ↔ count < 65536) := by
  have hleft : m.Copied a (count % 65536) (m.readRange a count) := by
    rw [readRange_eq]
    exact m.copied_map_range a (count % 65536)
  refine ⟨hleft, ?_, ?_⟩
  · rintro ⟨hlength, -⟩
    rw [length_readRange] at hlength
    omega
  · intro hfits
    rwa [Nat.mod_eq_of_lt hfits] at hleft

/-- Asked for 65536 bytes, reading a range copies none. -/
theorem range_of_65536_not_copied : ¬ blank.Copied 0 65536 (blank.readRange 0 65536) := by
  rintro ⟨hlength, -⟩
  rw [length_readRange] at hlength
  cases hlength

end Memory

end Chip8
