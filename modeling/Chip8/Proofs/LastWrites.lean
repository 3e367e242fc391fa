import Chip8.Machine.Memory
import Mathlib.Data.List.Induction

/-! # Last writes — memory as a map from cells to bytes

    Sixteen addresses name each cell, and a write through one of them is seen through all.
    So what an address shows after any writes in a row is the byte of the last write to its
    cell, through whatever address that went; and where there is none, what has been loaded:
    the font at the bottom, the program from 512 on, and zeros around them. -/

namespace Chip8

theorem cell_eq_iff {a b : Word} : cell a = cell b ↔ a.toNat % 4096 = b.toNat % 4096 :=
  Fin.ext_iff

namespace Memory

/-! ## Writes in a row -/

/-- The memory after writes in a row, each an address and a byte. -/
def writeAll (m : Memory) (writes : List (Word × Byte)) : Memory :=
  writes.foldl (fun m w => m.write w.1 w.2) m

/-- None of the writes goes to the cell of the address. -/
def Spared (writes : List (Word × Byte)) (a : Word) : Prop :=
  ∀ w ∈ writes, w.1.toNat % 4096 ≠ a.toNat % 4096

/-- The last of the writes that goes to the cell of the address writes the byte. -/
def LastWritten (writes : List (Word × Byte)) (a : Word) (v : Byte) : Prop :=
  ∃ before b behind, writes = before ++ (b, v) :: behind ∧
    b.toNat % 4096 = a.toNat % 4096 ∧ Spared behind a

theorem spared_or_lastWritten (writes : List (Word × Byte)) (a : Word) :
    Spared writes a ∨ ∃ v, LastWritten writes a v := by
  induction writes using List.reverseRecOn with
  | nil => exact Or.inl (List.forall_mem_nil _)
  | append_singleton writes w ih =>
      by_cases hw : w.1.toNat % 4096 = a.toNat % 4096
      · exact Or.inr ⟨w.2, writes, w.1, [], rfl, hw, List.forall_mem_nil _⟩
      · rcases ih with hspared | ⟨v, before, b, behind, rfl, hb, hbehind⟩
        · exact Or.inl (List.forall_mem_append.mpr ⟨hspared, List.forall_mem_singleton.mpr hw⟩)
        · refine Or.inr ⟨v, before, b, behind ++ [w], by simp, hb, ?_⟩
          exact List.forall_mem_append.mpr ⟨hbehind, List.forall_mem_singleton.mpr hw⟩

/-- Writes to other cells do not show. -/
theorem read_writeAll_of_spared {writes : List (Word × Byte)} {a : Word} (h : Spared writes a)
    (m : Memory) : (m.writeAll writes).read a = m.read a := by
  induction writes generalizing m with
  | nil => rfl
  | cons w r ih =>
      obtain ⟨hw, hr⟩ := List.forall_mem_cons.mp h
      show ((m.write w.1 w.2).writeAll r).read a = m.read a
      rw [ih hr, read_write, if_neg (mt cell_eq_iff.mp hw)]

/-- Nothing shows but the last write to the cell. -/
theorem read_writeAll_of_lastWritten {writes : List (Word × Byte)} {a : Word} {v : Byte}
    (h : LastWritten writes a v) (m : Memory) : (m.writeAll writes).read a = v := by
  obtain ⟨before, b, behind, rfl, hb, hbehind⟩ := h
  have hsplit : m.writeAll (before ++ (b, v) :: behind) =
      ((m.writeAll before).write b v).writeAll behind := by
    rw [writeAll, List.foldl_append]
    rfl
  rw [hsplit, read_writeAll_of_spared hbehind, read_write, if_pos (cell_eq_iff.mpr hb)]

/-! ## What has been loaded -/

/-- What a cell holds when an image has been loaded. -/
inductive Loaded (image : List Byte) : Nat → Byte → Prop where
  | font {c : Nat} {v : Byte} : font[c]? = some v → Loaded image c v
  | program {k : Nat} {v : Byte} : image[k]? = some v → Loaded image (0x200 + k) v
  | zero {c : Nat} : 80 ≤ c → c < 0x200 ∨ 0x200 + image.length ≤ c → Loaded image c 0

/-- Every cell holds something. -/
theorem exists_loaded (image : List Byte) (c : Nat) : ∃ v, Loaded image c v := by
  by_cases hfont : c < 80
  · exact ⟨_, .font (Vector.getElem?_eq_getElem hfont)⟩
  by_cases hprogram : 0x200 ≤ c ∧ c < 0x200 + image.length
  · obtain ⟨k, rfl⟩ := Nat.exists_eq_add_of_le hprogram.1
    have hk : k < image.length := by omega
    exact ⟨_, .program (List.getElem?_eq_getElem hk)⟩
  · exact ⟨0, .zero (by omega) (by omega)⟩

/-- The font is put below the program, so the program does not hide it. -/
theorem Loaded.read_eq {image : List Byte} {m : Memory} {a : Word} {v : Byte}
    (hv : Loaded image (a.toNat % 4096) v) (h : load image = .ok m) : m.read a = v := by
  have hread := read_of_load h a
  rw [read_blank] at hread
  have hcell : (cell a).val = a.toNat % 4096 := rfl
  rw [hcell] at hread
  generalize a.toNat % 4096 = c at hv hread
  cases hv with
  | font hfont =>
      obtain ⟨hc, -⟩ := Vector.getElem?_eq_some_iff.mp hfont
      rw [hread, if_neg (by omega), hfont]
      rfl
  | program himage =>
      rw [hread, if_pos (Nat.le_add_right _ _), Nat.add_sub_cancel_left, himage]
      rfl
  | zero hfont hout =>
      have hnone : Memory.font[c]? = none := Vector.getElem?_eq_none_iff.mpr hfont
      rw [hread, hnone]
      split
      · have hend : image[c - 0x200]? = none := List.getElem?_eq_none_iff.mpr (by omega)
        rw [hend]
        rfl
      · rfl

/-- Loading lays out the font, the image and zeros, and nothing else. -/
theorem read_eq_iff_loaded {image : List Byte} {m : Memory} (h : load image = .ok m) (a : Word)
    (v : Byte) : m.read a = v ↔ Loaded image (a.toNat % 4096) v := by
  constructor
  · intro hread
    obtain ⟨w, hw⟩ := exists_loaded image (a.toNat % 4096)
    obtain rfl : w = v := (hw.read_eq h).symm.trans hread
    exact hw
  · intro hv
    exact hv.read_eq h

/-! ## What an address shows -/

/-- What an address shows after writes in a row to a memory with an image loaded. -/
inductive Shows (image : List Byte) (writes : List (Word × Byte)) (a : Word) : Byte → Prop where
  | written {v : Byte} : LastWritten writes a v → Shows image writes a v
  | loaded {v : Byte} : Spared writes a → Loaded image (a.toNat % 4096) v → Shows image writes a v

theorem read_writeAll_eq_iff {image : List Byte} {m : Memory} (h : load image = .ok m)
    (writes : List (Word × Byte)) (a : Word) (v : Byte) :
    (m.writeAll writes).read a = v ↔ Shows image writes a v := by
  constructor
  · intro hread
    rcases spared_or_lastWritten writes a with hspared | ⟨last, hlast⟩
    · rw [read_writeAll_of_spared hspared, read_eq_iff_loaded h] at hread
      exact .loaded hspared hread
    · rw [read_writeAll_of_lastWritten hlast] at hread
      exact .written (hread ▸ hlast)
  · intro hshows
    cases hshows with
    | written hlast => exact read_writeAll_of_lastWritten hlast m
    | loaded hspared hloaded =>
        rw [read_writeAll_of_spared hspared]
        exact hloaded.read_eq h

theorem load_eq_error_iff (image : List Byte) (f : Fault) :
    load image = .error f ↔ 3584 < image.length ∧ f = .programTooLarge image.length 3584 := by
  rw [load]
  split
  · rename_i hlarge
    rw [Except.error.injEq, eq_comm]
    exact (and_iff_right hlarge).symm
  · rename_i hfits
    constructor
    · intro herror
      cases herror
    · rintro ⟨hlarge, -⟩
      exact absurd hlarge hfits

/-- **LAST WRITES**: loading an image fails if and only if it is longer than 3584 bytes, and
    the fault tells its size and this bound.  Otherwise it gives a memory in which, after any
    writes in a row, every address shows the byte of the last write to its cell, and if there
    is none, the byte of the font, of the image or the zero that has been loaded there. -/
theorem last_write_wins (image : List Byte) :
    (∀ f, load image = .error f ↔
      3584 < image.length ∧ f = .programTooLarge image.length 3584) ∧
    (image.length ≤ 3584 → ∃ m, load image = .ok m ∧
      ∀ writes a v, (m.writeAll writes).read a = v ↔ Shows image writes a v) := by
  refine ⟨load_eq_error_iff image, ?_⟩
  intro hfits
  have hload : load image = .ok _ := load_eq_ok_iff.mpr ⟨hfits, rfl⟩
  exact ⟨_, hload, read_writeAll_eq_iff hload⟩

/-- Two bytes are loaded; the last cell of memory is written twice and the second byte once,
    some of them through addresses beyond the end.  The later write to the last cell shows,
    the first byte and the font stay, and behind the image there is a zero. -/
theorem last_write_wins_around_end :
    let image : List Byte := [0x12, 0x34]
    let writes : List (Word × Byte) := [(0x1FFF, 7), (0x0FFF, 9), (0x1201, 5)]
    image.length ≤ 3584 ∧ ∃ m, load image = .ok m ∧
      (m.writeAll writes).read 0xFFFF = 9 ∧ (m.writeAll writes).read 0x0201 = 5 ∧
      (m.writeAll writes).read 0x2200 = 0x12 ∧ (m.writeAll writes).read 0x104F = 0x80 ∧
      (m.writeAll writes).read 0x0202 = 0 := by
  intro image writes
  have hfits : image.length ≤ 3584 := by decide
  obtain ⟨m, hload, hshows⟩ := (last_write_wins image).2 hfits
  refine ⟨hfits, m, hload, (hshows writes _ _).mpr ?_, (hshows writes _ _).mpr ?_,
    (hshows writes _ _).mpr ?_, (hshows writes _ _).mpr ?_, (hshows writes _ _).mpr ?_⟩
  · exact .written ⟨[(0x1FFF, 7)], 0x0FFF, [(0x1201, 5)], rfl, by decide,
      List.forall_mem_singleton.mpr (by decide)⟩
  · exact .written ⟨[(0x1FFF, 7), (0x0FFF, 9)], 0x1201, [], rfl, by decide,
      List.forall_mem_nil _⟩
  · exact .loaded (by simp [Spared, writes]) (.program (k := 0) rfl)
  · exact .loaded (by simp [Spared, writes]) (.font rfl)
  · exact .loaded (by simp [Spared, writes]) (.zero (by decide) (by decide))

end Memory

end Chip8
