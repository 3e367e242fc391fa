import Chip8.Machine.Fault

/-! # Memory — 4096 cells, the font at the bottom, the program above

    Every 16-bit address names a cell, around the end of memory.  The view of a
    memory is `Memory.read`: `Memory.read_write` says what a write does to it, and
    `Memory.read_of_load` what a loaded memory shows: the font, the program and zeros
    elsewhere. -/

namespace Chip8

/-- The cells of the machine. -/
structure Memory where
  cells : Vector Byte 4096
  deriving DecidableEq

namespace Memory

/-- The pictures of the sixteen digits, five rows each. -/
def font : Vector Byte 80 :=
  #v[0xF0, 0x90, 0x90, 0x90, 0xF0,
     0x20, 0x60, 0x20, 0x20, 0x70,
     0xF0, 0x10, 0xF0, 0x80, 0xF0,
     0xF0, 0x10, 0xF0, 0x10, 0xF0,
     0x90, 0x90, 0xF0, 0x10, 0x10,
     0xF0, 0x80, 0xF0, 0x10, 0xF0,
     0xF0, 0x80, 0xF0, 0x90, 0xF0,
     0xF0, 0x10, 0x20, 0x40, 0x40,
     0xF0, 0x90, 0xF0, 0x90, 0xF0,
     0xF0, 0x90, 0xF0, 0x10, 0xF0,
     0xF0, 0x90, 0xF0, 0x90, 0x90,
     0xE0, 0x90, 0xE0, 0x90, 0xE0,
     0xF0, 0x80, 0x80, 0x80, 0xF0,
     0xE0, 0x90, 0x90, 0x90, 0xE0,
     0xF0, 0x80, 0xF0, 0x80, 0xF0,
     0xF0, 0x80, 0xF0, 0x80, 0x80]

/-- The byte at an address. -/
def read (m : Memory) (a : Word) : Byte := m.cells[cell a]

/-- The memory with a byte replaced. -/
def write (m : Memory) (a : Word) (b : Byte) : Memory :=
  ⟨m.cells.set (cell a).val b (cell a).isLt⟩

/-- The bytes from an address on, around the end of memory.  The count is a
    16-bit one. -/
def readRange (m : Memory) (a : Word) (count : Nat) : List Byte :=
  (List.range (count % 65536)).map fun i => m.read (offset a (BitVec.ofNat 16 i))

/-- Writes bytes to the `i`-th cell from an address on, and to those after it. -/
def writeFrom (m : Memory) (a : Word) : Nat → List Byte → Memory
  | _, []     => m
  | i, b :: r => (m.write (offset a (BitVec.ofNat 16 i)) b).writeFrom a (i + 1) r

/-- The memory with bytes written from an address on, around the end. -/
def writeRange (m : Memory) (a : Word) (bytes : List Byte) : Memory := m.writeFrom a 0 bytes

/-- The memory with the font at the bottom and zeros above. -/
def blank : Memory := ⟨putFrom (Vector.replicate 4096 0) 0 font.toList⟩

/-- The memory with a program image put into it, if it fits. -/
def load (image : List Byte) : Except Fault Memory :=
  if programCapacity < image.length then .error (.programTooLarge image.length programCapacity)
  else .ok ⟨putFrom blank.cells 0x200 image⟩

/-- The word at an address, high byte first. -/
def readWord (m : Memory) (a : Word) : Word := bigEndian (m.read a) (m.read (offset a 1))

/-- A write is seen through every address of its cell and through no other. -/
theorem read_write (m : Memory) (a b : Word) (v : Byte) :
    (m.write a v).read b = if cell a = cell b then v else m.read b := by
  simp only [read, write, Fin.getElem_fin, Vector.getElem_set, Fin.ext_iff]

/-- Before a program is loaded, an address shows the font or zero. -/
theorem read_blank (a : Word) : blank.read a = font[(cell a).val]?.getD 0 := by
  rw [blank, read, getElem_putFrom, if_pos (Nat.zero_le _), Nat.sub_zero, Vector.getElem?_toList]
  simp only [Fin.getElem_fin, Vector.getElem_replicate]

theorem load_eq_ok_iff {image : List Byte} {m : Memory} :
    load image = .ok m ↔
      image.length ≤ programCapacity ∧ ⟨putFrom blank.cells 0x200 image⟩ = m := by
  rw [load]
  split
  · rename_i hlarge
    constructor
    · intro h
      cases h
    · rintro ⟨hfits, -⟩
      exact absurd hlarge (Nat.not_lt.mpr hfits)
  · rename_i hfits
    rw [Except.ok.injEq]
    exact (and_iff_right (Nat.not_lt.mp hfits)).symm

/-- Where the program has been put an address shows it, and elsewhere the font or zero. -/
theorem read_of_load {image : List Byte} {m : Memory} (h : load image = .ok m) (a : Word) :
    m.read a =
      if 0x200 ≤ (cell a).val then image[(cell a).val - 0x200]?.getD (blank.read a)
      else blank.read a := by
  rw [← (load_eq_ok_iff.mp h).2, read, getElem_putFrom]
  rfl

/-- Memories that read alike are the same. -/
theorem ext_read {m m' : Memory} (h : ∀ a, m.read a = m'.read a) : m = m' := by
  cases m with | mk cells =>
  cases m' with | mk cells' =>
  congr 1
  apply Vector.ext
  intro i hi
  have := h (BitVec.ofNat 16 i)
  have hc : (cell (BitVec.ofNat 16 i)).val = i := by
    simp only [cell, BitVec.toNat_ofNat]
    omega
  simpa [read, Fin.getElem_fin, hc] using this

end Memory

end Chip8
