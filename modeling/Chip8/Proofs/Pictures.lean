import Chip8.Proofs.Sprites

/-! # Pictures — what the text of a screen tells about it

    A screen is written as one line for each row and one character for each pixel.  No row
    holds a line break, so cutting the text at its line breaks gives the rows back, and each
    row gives its pixels back, of which every one is a single bit of a single byte.  So the
    text tells all 2048 bits: screens with the same text are the same
    (`Screen.text_faithful`). -/

namespace Chip8.Screen

/-! ## Rows -/

theorem length_rowText (s : Screen) (y : Nat) : (s.rowText y).length = 64 := by
  rw [rowText, List.length_map, List.length_range]

/-- The character that stands for a pixel. -/
theorem getElem?_rowText (s : Screen) {x : Nat} (hx : x < 64) (y : Nat) :
    (s.rowText y)[x]? = some (if s.pixel x y then '@' else ' ') := by
  rw [rowText, List.getElem?_map, List.getElem?_range hx]
  rfl

theorem mem_rowText {s : Screen} {y : Nat} {c : Char} (h : c ∈ s.rowText y) :
    c = '@' ∨ c = ' ' := by
  obtain ⟨x, -, rfl⟩ := List.mem_map.mp h
  split
  · exact Or.inl rfl
  · exact Or.inr rfl

/-- A lit pixel is shown by the mark, and a dark one is not. -/
theorem eq_mark_iff {lit : Bool} : (if lit then '@' else ' ') = '@' ↔ lit = true := by
  cases lit <;> decide

/-- There is a mark in a row if and only if some pixel of it is lit. -/
theorem mark_mem_rowText_iff {s : Screen} {y : Nat} :
    '@' ∈ s.rowText y ↔ ∃ x < 64, s.pixel x y = true := by
  simp only [rowText, List.mem_map, List.mem_range, eq_mark_iff]

/-! ## Lines -/

/-- The lines of the text are the rows of the screen. -/
theorem fields_text (s : Screen) :
    Text.fields '\n' s.text = (List.range 32).map s.rowText := by
  refine Text.fields_join (by simp) ?_
  intro row hrow hbreak
  obtain ⟨y, -, rfl⟩ := List.mem_map.mp hrow
  rcases mem_rowText hbreak with h | h
  · exact absurd h (by decide)
  · exact absurd h (by decide)

theorem getElem?_fields_text (s : Screen) {y : Nat} (hy : y < 32) :
    (Text.fields '\n' s.text)[y]? = some (s.rowText y) := by
  rw [fields_text, List.getElem?_map, List.getElem?_range hy]
  rfl

/-- The text does not end in a line break, for then its last line would be empty. -/
theorem getLast?_text (s : Screen) : s.text.getLast? ≠ some '\n' := by
  intro hlast
  obtain ⟨front, hfront⟩ := List.getLast?_eq_some_iff.mp hlast
  have hempty : [] ∈ Text.fields '\n' s.text := by
    rw [hfront, Text.fields_append]
    exact List.mem_append_right _ (List.mem_singleton.mpr rfl)
  rw [fields_text] at hempty
  obtain ⟨y, -, hrow⟩ := List.mem_map.mp hempty
  have hlength := s.length_rowText y
  rw [hrow] at hlength
  cases hlength

/-- There is a mark in the text if and only if some pixel is lit. -/
theorem mark_mem_text_iff {s : Screen} :
    '@' ∈ s.text ↔ ∃ (x : Fin 64) (y : Fin 32), s.pixel x y = true := by
  constructor
  · intro h
    rcases Text.mem_join h with hbreak | ⟨row, hrow, hmark⟩
    · exact absurd hbreak (by decide)
    · obtain ⟨y, hy, rfl⟩ := List.mem_map.mp hrow
      obtain ⟨x, hx, hlit⟩ := mark_mem_rowText_iff.mp hmark
      exact ⟨⟨x, hx⟩, ⟨y, List.mem_range.mp hy⟩, hlit⟩
  · rintro ⟨x, y, hlit⟩
    have hrow : s.rowText y ∈ (List.range 32).map s.rowText :=
      List.mem_map_of_mem (List.mem_range.mpr y.isLt)
    exact Text.mem_join_of_mem _ hrow (mark_mem_rowText_iff.mpr ⟨x, x.isLt, hlit⟩)

/-! ## Bytes -/

/-- The bit that shows a pixel. -/
theorem exists_byte_pixel (s : Screen) (x : Fin 64) (y : Fin 32) :
    ∃ byte : Byte, s.cells[8 * y.val + x.val / 8]? = some byte ∧
      s.pixel x y = byte.getLsbD (7 - x.val % 8) := by
  have hplace : 8 * y.val + x.val / 8 = (place y (x.val / 8)).val := by
    show _ = y.val % 32 * 8 + x.val / 8 % 8
    omega
  refine ⟨s.cells.get (place y (x.val / 8)), ?_, ?_⟩
  · rw [hplace]
    exact Vector.getElem?_eq_getElem (place y (x.val / 8)).isLt
  · show (s.cells.get (place y (x.val / 8))).getMsbD (x.val % 8) = _
    have hbit : x.val % 8 < 8 := Nat.mod_lt _ (by decide)
    rw [BitVec.getMsbD, decide_eq_true hbit, Bool.true_and]

/-- Only the screen whose pixels are all dark is blank. -/
theorem isBlank_iff {s : Screen} :
    s.isBlank = true ↔ ∀ (x : Fin 64) (y : Fin 32), s.pixel x y = false := by
  constructor
  · intro h x y
    have hzero := Vector.all_eq_true.mp h (place y (x.val / 8)) (place y (x.val / 8)).isLt
    show (s.cells[(place y (x.val / 8)).val]).getMsbD (x.val % 8) = false
    rw [eq_of_beq hzero]
    exact BitVec.getMsbD_zero
  · intro h
    have hblank : s = blank := ext_pixel fun x y => (h x y).trans (pixel_blank x y).symm
    rw [hblank, isBlank, Vector.all_eq_true]
    intro i hi
    show ((Vector.replicate 256 0#8)[i] == 0) = true
    rw [Vector.getElem_replicate]
    rfl

/-! ## The whole picture -/

/-- Screens with the same text have the same pixels. -/
theorem eq_of_text_eq {s s' : Screen} (h : s.text = s'.text) : s = s' := by
  refine ext_pixel fun x y => ?_
  have hrow : s.rowText y = s'.rowText y := by
    apply Option.some.inj
    rw [← getElem?_fields_text s y.isLt, ← getElem?_fields_text s' y.isLt, h]
  have hmark : (if s.pixel x y then '@' else ' ') = if s'.pixel x y then '@' else ' ' := by
    apply Option.some.inj
    rw [← getElem?_rowText s x.isLt, ← getElem?_rowText s' x.isLt, hrow]
  rw [Bool.eq_iff_iff, ← eq_mark_iff, hmark, eq_mark_iff]

/-- **A FAITHFUL PICTURE**: the text of a screen is 32 lines of 64 characters with line breaks
    between them and none behind the last.  Every character is a mark or a blank, and the one
    at column `x` of line `y` is a mark if and only if the pixel there is lit, which is bit
    `7 - x % 8` of byte `8 * y + x / 8`.  So two screens have the same text if and only if
    they have the same bytes, and a screen is blank if and only if its text has no mark. -/
theorem text_faithful :
    (∀ s : Screen,
      let lines := Text.fields '\n' s.text
      s.text = Text.join ['\n'] lines ∧ lines.length = 32 ∧ s.text.getLast? ≠ some '\n' ∧
      (∀ row ∈ lines, row.length = 64 ∧ ∀ c ∈ row, c = '@' ∨ c = ' ') ∧
      (∀ (x : Fin 64) (y : Fin 32), ∃ (row : Text) (c : Char) (byte : Byte),
        lines[y.val]? = some row ∧ row[x.val]? = some c ∧
        s.cells[8 * y.val + x.val / 8]? = some byte ∧
        (c = '@' ↔ s.pixel x y = true) ∧
        (s.pixel x y = true ↔ byte.getLsbD (7 - x.val % 8) = true)) ∧
      (s.isBlank = true ↔ '@' ∉ s.text)) ∧
    ∀ s s' : Screen, s.text = s'.text ↔ s.cells = s'.cells := by
  constructor
  · intro s lines
    have hlines : lines = (List.range 32).map s.rowText := s.fields_text
    refine ⟨(Text.join_fields '\n' s.text).symm, ?_, s.getLast?_text, ?_, ?_, ?_⟩
    · rw [hlines, List.length_map, List.length_range]
    · intro row hrow
      rw [hlines] at hrow
      obtain ⟨y, -, rfl⟩ := List.mem_map.mp hrow
      exact ⟨s.length_rowText y, fun c hc => mem_rowText hc⟩
    · intro x y
      obtain ⟨byte, hbyte, hpixel⟩ := s.exists_byte_pixel x y
      exact ⟨s.rowText y, _, byte, s.getElem?_fields_text y.isLt, s.getElem?_rowText x.isLt y,
        hbyte, eq_mark_iff, Bool.eq_iff_iff.mp hpixel⟩
    · rw [isBlank_iff, mark_mem_text_iff]
      simp only [not_exists, Bool.not_eq_true]
  · intro s s'
    constructor
    · intro h
      exact congrArg cells (eq_of_text_eq h)
    · intro h
      obtain ⟨cells⟩ := s
      obtain ⟨cells'⟩ := s'
      obtain rfl : cells = cells' := h
      rfl

end Chip8.Screen
