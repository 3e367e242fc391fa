/-! # Words — bytes, addresses and register selectors

    The machine handles bytes and 16-bit words, but it owns only 4096 cells and
    16 registers.  Operands arrive unreduced: a 16-bit address names the cell
    `a % 4096`, an 8-bit selector names the register `x % 16`.  The reductions
    live here, once, so that every module that reads or writes through an
    operand agrees on the cell or register meant. -/

namespace Chip8

/-- What a memory cell or a data register holds. -/
abbrev Byte := BitVec 8

/-- Two bytes: an opcode, or an address before it is reduced. -/
abbrev Word := BitVec 16

/-! ## Addresses -/

/-- The cell that an address names. -/
def cell (a : Word) : Fin 4096 := ⟨a.toNat % 4096, Nat.mod_lt _ (by decide)⟩

/-- The address below 4096 that names the same cell. -/
def wrap (a : Word) : Word := a % 4096

/-- The address `n` cells further on, around the end of memory. -/
def offset (a n : Word) : Word := wrap (a + n)

theorem toNat_wrap (a : Word) : (wrap a).toNat = a.toNat % 4096 := by
  simp [wrap, BitVec.toNat_umod]

theorem toNat_offset (a n : Word) : (offset a n).toNat = (a.toNat + n.toNat) % 4096 := by
  simp only [offset, toNat_wrap, BitVec.toNat_add]
  omega

theorem offset_eq_ofNat (a n : Word) :
    offset a n = BitVec.ofNat 16 ((a.toNat + n.toNat) % 4096) := by
  apply BitVec.eq_of_toNat_eq
  rw [toNat_offset, BitVec.toNat_ofNat]
  omega

theorem wrap_lt (a : Word) : (wrap a).toNat < 4096 := by
  rw [toNat_wrap]
  exact Nat.mod_lt _ (by decide)

theorem offset_lt (a n : Word) : (offset a n).toNat < 4096 := wrap_lt _

/-- Reducing an address does not change its cell. -/
@[simp] theorem cell_wrap (a : Word) : cell (wrap a) = cell a := by
  simp [cell, toNat_wrap]

/-! ## Places -/

/-- Places with values put into them one after the other, from the `start`-th on, as
    far as there are places. -/
def putFrom {α : Type} {n : Nat} (places : Vector α n) (start : Nat) : List α → Vector α n
  | []     => places
  | a :: r => putFrom (places.setIfInBounds start a) (start + 1) r

/-- A place holds the value that came to it, and any other what it held before. -/
theorem getElem_putFrom {α : Type} {n : Nat} (places : Vector α n) (start : Nat)
    (values : List α) (k : Fin n) :
    (putFrom places start values)[k] =
      if start ≤ k.val then values[k.val - start]?.getD places[k] else places[k] := by
  induction values generalizing places start with
  | nil => simp [putFrom]
  | cons a r ih =>
    rw [putFrom, ih, Fin.getElem_fin, Fin.getElem_fin, Vector.getElem_setIfInBounds]
    rcases Nat.lt_trichotomy start k.val with hlt | heq | hgt
    · have hnext : k.val - start = k.val - (start + 1) + 1 := by omega
      rw [if_neg (Nat.ne_of_lt hlt), if_pos (Nat.succ_le_of_lt hlt), if_pos (Nat.le_of_lt hlt),
        hnext, List.getElem?_cons_succ]
    · rw [if_pos heq, heq, if_neg (Nat.not_succ_le_self k.val), if_pos (Nat.le_refl k.val),
        Nat.sub_self, List.getElem?_cons_zero, Option.getD_some]
    · rw [if_neg (Nat.ne_of_gt hgt), if_neg (by omega), if_neg (Nat.not_le.mpr hgt)]

/-! ## Register selectors -/

/-- The register that an 8-bit selector names. -/
def slot (x : Byte) : Fin 16 := ⟨x.toNat % 16, Nat.mod_lt _ (by decide)⟩

theorem slot_eq_iff {x y : Byte} : slot x = slot y ↔ x.toNat % 16 = y.toNat % 16 := Fin.ext_iff

/-! ## Words and their bytes -/

/-- The word whose bytes are stored high byte first. -/
def bigEndian (hi lo : Byte) : Word := BitVec.ofNat 16 (hi.toNat * 256 + lo.toNat)

/-- The first byte of a stored word. -/
def highByte (w : Word) : Byte := BitVec.ofNat 8 (w.toNat / 256)

/-- The second byte of a stored word. -/
def lowByte (w : Word) : Byte := BitVec.ofNat 8 w.toNat

@[simp] theorem bigEndian_highByte_lowByte (w : Word) :
    bigEndian (highByte w) (lowByte w) = w := by
  apply BitVec.eq_of_toNat_eq
  simp only [bigEndian, highByte, lowByte, BitVec.toNat_ofNat]
  omega

@[simp] theorem highByte_bigEndian (hi lo : Byte) : highByte (bigEndian hi lo) = hi := by
  apply BitVec.eq_of_toNat_eq
  simp only [bigEndian, highByte, BitVec.toNat_ofNat]
  omega

@[simp] theorem lowByte_bigEndian (hi lo : Byte) : lowByte (bigEndian hi lo) = lo := by
  apply BitVec.eq_of_toNat_eq
  simp only [bigEndian, lowByte, BitVec.toNat_ofNat]
  omega

end Chip8
