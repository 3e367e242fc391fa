import Chip8.Instruction
import Chip8.Machine.Screen

/-! # Blits — drawing, pixel by pixel

    The screen is drawn on by bytes: each sprite byte is split over two columns,
    and the halves are inverted into the buffer one after the other.  Seen by
    pixels this is an exclusive or.  `hits` counts the set bits of a sprite that
    fall on a pixel; drawing inverts the pixel if the count is odd, and reports a
    hit if some pixel was covered twice, or covered once when it was lit.

    The file goes from one byte (`flip`) over one sprite row (`drawRow`, with
    `inked` for the pixels that a row covers) to whole sprites, and ends with the
    strokes of a draw: every byte it changes lies in the buffer, and no shift moves
    a byte out of itself. -/

namespace Chip8.Screen

/-! ## One byte of the buffer -/

theorem place_eq_iff {row column row' column' : Nat} :
    place row column = place row' column' ↔
      row % 32 = row' % 32 ∧ column % 8 = column' % 8 := by
  rw [Fin.ext_iff]
  show row % 32 * 8 + column % 8 = row' % 32 * 8 + column' % 8 ↔ _
  omega

/-- Inverting bits of a byte inverts the pixels that the byte shows. -/
theorem pixel_flip (s : Screen) (i : Fin 256) (bits : Byte) (px py : Nat) :
    (s.flip i bits).1.pixel px py =
      (s.pixel px py ^^ (decide (place py (px / 8) = i) && bits.getMsbD (px % 8))) := by
  show (s.cells.set i.val (s.cells[i] ^^^ bits) i.isLt)[(place py (px / 8)).val].getMsbD (px % 8)
    = _
  rw [Vector.getElem_set]
  by_cases h : i = place py (px / 8)
  · rw [if_pos (congrArg Fin.val h), BitVec.getMsbD_xor, decide_eq_true h.symm, h]
    rfl
  · rw [if_neg (fun e => h (Fin.ext e)), decide_eq_false (fun e => h e.symm)]
    exact (Bool.xor_false _).symm

/-- The pixel at bit `k` of the byte at `i`. -/
theorem place_of_index (i : Fin 256) {k : Nat} (hk : k < 8) :
    place (i.val / 8) ((i.val % 8 * 8 + k) / 8) = i := by
  apply Fin.ext
  show i.val / 8 % 32 * 8 + (i.val % 8 * 8 + k) / 8 % 8 = i.val
  omega

/-- A byte that is not zero has a set bit. -/
theorem exists_getMsbD {b : Byte} (h : b ≠ 0) : ∃ k, k < 8 ∧ b.getMsbD k = true := by
  refine Classical.byContradiction fun hno => h (BitVec.eq_of_getMsbD_eq fun k hk => ?_)
  show b.getMsbD k = (0#8).getMsbD k
  rw [BitVec.getMsbD_zero]
  exact Bool.eq_false_iff.mpr fun hb => hno ⟨k, hk, hb⟩

/-- Inverting hits if and only if one of the inverted pixels was lit. -/
theorem flip_hit {s : Screen} {i : Fin 256} {bits : Byte} :
    (s.flip i bits).2 = true ↔ ∃ (px : Fin 64) (py : Fin 32),
      place py (px / 8) = i ∧ bits.getMsbD (px % 8) = true ∧ s.pixel px py = true := by
  show (s.cells[i] &&& bits != 0) = true ↔ _
  rw [bne_iff_ne]
  constructor
  · intro h
    obtain ⟨k, hk, hbit⟩ := exists_getMsbD h
    rw [BitVec.getMsbD_and, Bool.and_eq_true] at hbit
    have hi := i.isLt
    have hmod : (i.val % 8 * 8 + k) % 8 = k := by omega
    refine ⟨⟨i.val % 8 * 8 + k, by omega⟩, ⟨i.val / 8, by omega⟩, place_of_index i hk, ?_, ?_⟩
    · show bits.getMsbD ((i.val % 8 * 8 + k) % 8) = true
      rw [hmod]
      exact hbit.2
    · show s.pixel (i.val % 8 * 8 + k) (i.val / 8) = true
      unfold pixel
      rw [hmod]
      simp only [place_of_index i hk]
      exact hbit.1
  · rintro ⟨px, py, rfl, hbit, hlit⟩ hzero
    have hboth : (s.cells[place py (px / 8)] &&& bits).getMsbD (px % 8) = true := by
      rw [BitVec.getMsbD_and, hbit, Bool.and_true]
      exact hlit
    rw [hzero] at hboth
    exact Bool.noConfusion (BitVec.getMsbD_zero.symm.trans hboth)

/-! ## One sprite row -/

/-- Whether a sprite row whose left end lies at pixel `x` of row `y` covers a pixel
    with a set bit. -/
def inked (bits : Byte) (x y px py : Nat) : Bool :=
  decide (py % 32 = y % 32) && bits.getMsbD ((px + (64 - x % 64)) % 64)

/-- The part of a sprite row that falls on the column of its left end. -/
def inkedLeft (bits : Byte) (x y px py : Nat) : Bool :=
  decide (place py (px / 8) = place y (x / 8)) && (bits >>> (x % 8)).getMsbD (px % 8)

/-- The part of a sprite row that falls on the next column. -/
def inkedRight (bits : Byte) (x y px py : Nat) : Bool :=
  decide (place py (px / 8) = place y (x / 8 + 1)) && (bits <<< (8 - x % 8)).getMsbD (px % 8)

/-- Which bit of a row lies on pixel `k` of column `c`, when the row begins at
    pixel `k'` of column `c'`. -/
theorem bit_of_column (bits : Byte) {c c' k k' : Nat}
    (hc : c < 8) (hc' : c' < 8) (hk : k < 8) (hk' : k' < 8) :
    bits.getMsbD ((c * 8 + k + (64 - (c' * 8 + k'))) % 64) =
      ((decide (c = c') && (!decide (k < k') && bits.getMsbD (k - k'))) ||
        (decide (c = (c' + 1) % 8) && bits.getMsbD (k + (8 - k')))) := by
  by_cases hsame : c = c'
  · rw [decide_eq_true hsame, decide_eq_false (by omega : ¬ c = (c' + 1) % 8)]
    by_cases hbefore : k < k'
    · rw [decide_eq_true hbefore, BitVec.getMsbD_of_ge _ _ (by omega)]
      rfl
    · rw [decide_eq_false hbefore,
        show (c * 8 + k + (64 - (c' * 8 + k'))) % 64 = k - k' by omega]
      exact (Bool.or_false _).symm
  · rw [decide_eq_false hsame]
    by_cases hnext : c = (c' + 1) % 8
    · rw [decide_eq_true hnext,
        show (c * 8 + k + (64 - (c' * 8 + k'))) % 64 = k + (8 - k') by omega]
      rfl
    · rw [decide_eq_false hnext, BitVec.getMsbD_of_ge _ _ (by omega)]
      rfl

/-- The two parts make up the row. -/
theorem inked_eq_or (bits : Byte) (x y px py : Nat) :
    inked bits x y px py = (inkedLeft bits x y px py || inkedRight bits x y px py) := by
  have hx : x % 64 = x / 8 % 8 * 8 + x % 8 := by omega
  have hd : (px + (64 - x % 64)) % 64 = (px / 8 % 8 * 8 + px % 8 + (64 - x % 64)) % 64 := by
    omega
  have hnext : (x / 8 + 1) % 8 = (x / 8 % 8 + 1) % 8 := by omega
  unfold inked inkedLeft inkedRight
  rw [hd, hx, bit_of_column bits (Nat.mod_lt _ (by decide)) (Nat.mod_lt _ (by decide))
    (Nat.mod_lt _ (by decide)) (Nat.mod_lt _ (by decide)), BitVec.getMsbD_ushiftRight,
    BitVec.getMsbD_shiftLeft]
  simp only [place_eq_iff, hnext]
  by_cases hrow : py % 32 = y % 32
  · simp [hrow, Nat.mod_lt]
  · simp [hrow]

/-- The two parts fall on different columns. -/
theorem not_inked_twice {bits : Byte} {x y px py : Nat}
    (hl : inkedLeft bits x y px py = true) : inkedRight bits x y px py = false := by
  unfold inkedLeft at hl
  rw [Bool.and_eq_true, decide_eq_true_eq, place_eq_iff] at hl
  unfold inkedRight
  rw [decide_eq_false, Bool.false_and]
  rw [place_eq_iff]
  omega

/-- Inverting no bit changes nothing and hits nothing. -/
theorem flip_zero (s : Screen) (i : Fin 256) : s.flip i 0#8 = (s, false) := by
  have hsame : s.cells.set i.val (s.cells[i] ^^^ 0#8) i.isLt = s.cells := by
    rw [BitVec.xor_zero]
    exact Vector.set_getElem_self i.isLt
  have hdark : (s.cells[i] &&& 0#8 != 0) = false := by
    rw [BitVec.and_zero]
    rfl
  show (Screen.mk (s.cells.set i.val (s.cells[i] ^^^ 0#8) i.isLt), s.cells[i] &&& 0#8 != 0) = _
  rw [hsame, hdark]

/-- A row on a byte boundary is split too, with nothing in its second part. -/
theorem drawRow_eq (s : Screen) (x y : Nat) (bits : Byte) :
    s.drawRow x y bits =
      let first := s.flip (place y (x / 8)) (bits >>> (x % 8))
      let second := first.1.flip (place y (x / 8 + 1)) (bits <<< (8 - x % 8))
      (second.1, first.2 || second.2) := by
  let first := s.flip (place y (x / 8)) (bits >>> (x % 8))
  let second := first.1.flip (place y (x / 8 + 1)) (bits <<< (8 - x % 8))
  show (if x % 8 = 0 then (first.1, first.2) else (second.1, first.2 || second.2)) =
    (second.1, first.2 || second.2)
  by_cases h : x % 8 = 0
  · have hnone : bits <<< (8 - x % 8) = 0#8 := by
      rw [h]
      exact BitVec.shiftLeft_eq_zero (Nat.le_refl 8)
    have hsecond : second = (first.1, false) := by
      show first.1.flip (place y (x / 8 + 1)) (bits <<< (8 - x % 8)) = _
      rw [hnone, flip_zero]
    rw [if_pos h, hsecond, Bool.or_false]
  · rw [if_neg h]

/-- Drawing a row inverts the pixels that it covers. -/
theorem pixel_drawRow (s : Screen) (x y : Nat) (bits : Byte) (px py : Nat) :
    (s.drawRow x y bits).1.pixel px py = (s.pixel px py ^^ inked bits x y px py) := by
  rw [drawRow_eq]
  show ((s.flip _ _).1.flip _ _).1.pixel px py = _
  rw [pixel_flip, pixel_flip, inked_eq_or, Bool.xor_assoc]
  show (s.pixel px py ^^ (inkedLeft bits x y px py ^^ inkedRight bits x y px py)) = _
  cases hl : inkedLeft bits x y px py with
  | false => rw [Bool.false_xor, Bool.false_or]
  | true => rw [not_inked_twice hl, Bool.xor_false, Bool.or_false]

/-- A row hits if and only if it covers a lit pixel. -/
theorem drawRow_hit {s : Screen} {x y : Nat} {bits : Byte} :
    (s.drawRow x y bits).2 = true ↔ ∃ (px : Fin 64) (py : Fin 32),
      inked bits x y px py = true ∧ s.pixel px py = true := by
  rw [drawRow_eq]
  show ((s.flip _ _).2 || ((s.flip _ _).1.flip _ _).2) = true ↔ _
  rw [Bool.or_eq_true, flip_hit, flip_hit]
  constructor
  · rintro (⟨px, py, hplace, hbit, hlit⟩ | ⟨px, py, hplace, hbit, hlit⟩)
    · have hl : inkedLeft bits x y px py = true := by
        rw [inkedLeft, hbit, Bool.and_true, decide_eq_true hplace]
      exact ⟨px, py, by rw [inked_eq_or, hl, Bool.true_or], hlit⟩
    · have hr : inkedRight bits x y px py = true := by
        rw [inkedRight, hbit, Bool.and_true, decide_eq_true hplace]
      have hl : inkedLeft bits x y px py = false := by
        cases hl : inkedLeft bits x y px py with
        | false => rfl
        | true => exact Bool.noConfusion (hr.symm.trans (not_inked_twice hl))
      -- the first part has left this pixel alone
      rw [pixel_flip] at hlit
      have hsame : (s.pixel px py ^^ inkedLeft bits x y px py) = true := hlit
      rw [hl, Bool.xor_false] at hsame
      exact ⟨px, py, by rw [inked_eq_or, hr, Bool.or_true], hsame⟩
  · rintro ⟨px, py, hink, hlit⟩
    cases hl : inkedLeft bits x y px py with
    | true =>
        have hparts := hl
        rw [inkedLeft, Bool.and_eq_true, decide_eq_true_eq] at hparts
        exact Or.inl ⟨px, py, hparts.1, hparts.2, hlit⟩
    | false =>
        rw [inked_eq_or, hl, Bool.false_or, inkedRight, Bool.and_eq_true, decide_eq_true_eq]
          at hink
        refine Or.inr ⟨px, py, hink.1, hink.2, ?_⟩
        rw [pixel_flip]
        show (s.pixel px py ^^ inkedLeft bits x y px py) = true
        rw [hl, Bool.xor_false]
        exact hlit

/-! ## Whole sprites -/

/-- The bits of a sprite of so many rows, by row and by place from the left. -/
def bitPlaces (rows : Nat) : List (Nat × Nat) :=
  (List.range rows).flatMap fun i => (List.range 8).map fun b => (i, b)

/-- How many set bits of a sprite, drawn with its top left end at column `x`, row `y`,
    fall on a pixel; columns and rows go around. -/
def hits (sprite : List Byte) (x y px py : Nat) : Nat :=
  (bitPlaces sprite.length).countP fun (i, b) =>
    (sprite.getD i 0).getLsbD (7 - b) && (x + b) % 64 == px && (y + i) % 32 == py

theorem bitPlaces_succ (rows : Nat) :
    bitPlaces (rows + 1) =
      (List.range 8).map (fun b => (0, b)) ++ (bitPlaces rows).map fun (i, b) => (i + 1, b) := by
  unfold bitPlaces
  rw [List.range_succ_eq_map (n := rows), List.flatMap_cons, List.flatMap_map, List.map_flatMap]
  simp only [List.map_map]
  rfl

/-- At most one number satisfies a test that fixes it. -/
theorem countP_range_eq (p : Nat → Bool) (d n : Nat) :
    (List.range n).countP (fun b => p b && b == d) = (decide (d < n) && p d).toNat := by
  induction n with
  | zero => rfl
  | succ n ih =>
      rw [List.range_succ, List.countP_append, ih, List.countP_singleton]
      rcases Nat.lt_trichotomy d n with h | h | h
      · simp [h, Nat.lt_succ_of_lt h, Nat.ne_of_gt h]
      · subst h
        cases p d <;> simp
      · simp [Nat.not_lt_of_gt h, Nat.ne_of_lt h, Nat.not_lt.mpr h]

/-- A row covers a pixel with one of its bits or with none. -/
theorem countP_row (bits : Byte) (x y : Nat) (px : Fin 64) (py : Fin 32) :
    (List.range 8).countP (fun b =>
      bits.getLsbD (7 - b) && (x + b) % 64 == px.val && y % 32 == py.val) =
        (inked bits x y px py).toNat := by
  have hpx := px.isLt
  have hpy := py.isLt
  let d := (px.val + (64 - x % 64)) % 64
  let covered : Nat → Bool := fun b => decide (py.val % 32 = y % 32) && bits.getMsbD b
  have hfix : ∀ b ∈ List.range 8,
      (bits.getLsbD (7 - b) && (x + b) % 64 == px.val && y % 32 == py.val) = true ↔
        (covered b && b == d) = true := by
    intro b hb
    have hb8 : b < 8 := List.mem_range.mp hb
    have hbit : bits.getMsbD b = bits.getLsbD (7 - b) := by
      rw [BitVec.getMsbD_eq_getLsbD, decide_eq_true hb8, Bool.true_and]
    simp only [covered, d, hbit, Bool.and_eq_true, beq_iff_eq, decide_eq_true_eq]
    constructor
    · rintro ⟨⟨hset, hcol⟩, hrow⟩
      exact ⟨⟨by omega, hset⟩, by omega⟩
    · rintro ⟨⟨hrow, hset⟩, hcol⟩
      exact ⟨⟨hset, by omega⟩, by omega⟩
  rw [List.countP_congr hfix, countP_range_eq]
  show (decide (d < 8) && covered d).toNat = (covered d).toNat
  by_cases h : d < 8
  · rw [decide_eq_true h, Bool.true_and]
  · have hnone : covered d = false := by
      show (decide (py.val % 32 = y % 32) && bits.getMsbD d) = false
      rw [BitVec.getMsbD_of_ge _ _ (Nat.not_lt.mp h), Bool.and_false]
    rw [hnone, Bool.and_false]

/-- A sprite covers a pixel with its first row and with the rows below. -/
theorem hits_cons (bits : Byte) (r : List Byte) (x y : Nat) (px : Fin 64) (py : Fin 32) :
    hits (bits :: r) x y px py = (inked bits x y px py).toNat + hits r x (y + 1) px py := by
  unfold hits
  rw [List.length_cons, bitPlaces_succ, List.countP_append, List.countP_map, List.countP_map,
    ← countP_row]
  congr 2
  funext ⟨i, b⟩
  show ((r.getD i 0).getLsbD (7 - b) && (x + b) % 64 == px.val && (y + (i + 1)) % 32 == py.val)
    = ((r.getD i 0).getLsbD (7 - b) && (x + b) % 64 == px.val && (y + 1 + i) % 32 == py.val)
  rw [Nat.add_right_comm y 1 i, Nat.add_assoc y i 1]

/-- Drawing inverts the pixels that the sprite covers an odd number of times. -/
theorem pixel_drawRows (sprite : List Byte) (x : Nat) (px : Fin 64) (py : Fin 32) :
    ∀ (s : Screen) (y : Nat), (s.drawRows x y sprite).1.pixel px py =
      (s.pixel px py ^^ decide (hits sprite x y px py % 2 = 1)) := by
  induction sprite with
  | nil =>
      intro s y
      exact (Bool.xor_false _).symm
  | cons bits r ih =>
      intro s y
      show ((s.drawRow x y bits).1.drawRows x (y + 1) r).1.pixel px py = _
      rw [ih, pixel_drawRow, hits_cons, Bool.xor_assoc]
      cases hink : inked bits x y px py with
      | false => rw [Bool.false_xor, Bool.toNat_false, Nat.zero_add]
      | true =>
          congr 1
          rw [Bool.toNat_true, Bool.true_xor, ← decide_not]
          exact decide_eq_decide.mpr (by omega)

/-- What a pixel tells about hits, when one row is drawn before the others: `lit` and
    `ink` are the pixel and the first row there, `n` counts the rows below. -/
theorem collision_step (lit ink : Bool) (n : Nat) :
    ((ink = true ∧ lit = true) ∨ 2 ≤ n ∨ (n = 1 ∧ (lit ^^ ink) = true)) ↔
      (2 ≤ ink.toNat + n ∨ (ink.toNat + n = 1 ∧ lit = true)) := by
  cases ink <;> cases lit <;> simp <;> omega

/-- Drawing hits if and only if some pixel is covered twice, or once when it is lit. -/
theorem drawRows_hit (sprite : List Byte) (x : Nat) :
    ∀ (s : Screen) (y : Nat), (s.drawRows x y sprite).2 = true ↔
      ∃ (px : Fin 64) (py : Fin 32), 2 ≤ hits sprite x y px py ∨
        (hits sprite x y px py = 1 ∧ s.pixel px py = true) := by
  induction sprite with
  | nil =>
      intro s y
      constructor
      · intro h
        cases h
      · rintro ⟨px, py, h | ⟨h, -⟩⟩
        · exact absurd h (Nat.not_succ_le_zero 1)
        · cases h
  | cons bits r ih =>
      intro s y
      show ((s.drawRow x y bits).2 || ((s.drawRow x y bits).1.drawRows x (y + 1) r).2) = true ↔ _
      rw [Bool.or_eq_true, drawRow_hit, ih]
      simp only [pixel_drawRow, hits_cons, ← collision_step]
      constructor
      · rintro (⟨px, py, h⟩ | ⟨px, py, h⟩)
        · exact ⟨px, py, Or.inl h⟩
        · exact ⟨px, py, Or.inr h⟩
      · rintro ⟨px, py, h | h⟩
        · exact Or.inl ⟨px, py, h⟩
        · exact Or.inr ⟨px, py, h⟩

/-! ## Strokes: where drawing writes and how far it shifts -/

/-- One change of the buffer: a place in it, and a sprite byte moved by an amount. -/
structure Stroke where
  index : Nat
  byte : Byte
  direction : Direction
  amount : Nat

/-- The bits that a stroke inverts. -/
def Stroke.bits (k : Stroke) : Byte :=
  match k.direction with
  | .right => k.byte >>> k.amount
  | .left  => k.byte <<< k.amount

/-- The strokes of sprite row `i`, for a sprite at column `x`, row `y`. -/
def rowStrokes (x y i : Nat) (bits : Byte) : List Stroke :=
  let row := (y % 32 + i) % 32 * 8
  let column := x % 64 / 8
  let shift := x % 64 % 8
  ⟨row + column, bits, .right, shift⟩ ::
    if shift = 0 then [] else [⟨row + (column + 1) % 8, bits, .left, 8 - shift⟩]

/-- The strokes of a sprite from its row `i` on. -/
def strokesFrom (x y : Nat) : Nat → List Byte → List Stroke
  | _, []        => []
  | i, bits :: r => rowStrokes x y i bits ++ strokesFrom x y (i + 1) r

/-- Carries a stroke out, unless its place lies outside the buffer or its shift moves
    the byte out of itself. -/
def strike (s : Screen) (k : Stroke) : Option (Screen × Bool) :=
  if h : k.index < 256 ∧ k.amount < 8 then some (s.flip ⟨k.index, h.1⟩ k.bits) else none

/-- Carries strokes out one after the other and tells whether one of them hit. -/
def strikeAll (s : Screen) : List Stroke → Option (Screen × Bool)
  | []     => some (s, false)
  | k :: r =>
    (s.strike k).bind fun first =>
      (strikeAll first.1 r).map fun rest => (rest.1, first.2 || rest.2)

theorem strikeAll_append (s : Screen) (ks ks' : List Stroke) :
    s.strikeAll (ks ++ ks') =
      (s.strikeAll ks).bind fun first =>
        (strikeAll first.1 ks').map fun rest => (rest.1, first.2 || rest.2) := by
  induction ks generalizing s with
  | nil =>
      show s.strikeAll ks' = (s.strikeAll ks').map fun rest => (rest.1, false || rest.2)
      simp
  | cons k r ih =>
      simp only [List.cons_append, strikeAll]
      cases s.strike k with
      | none => rfl
      | some struck =>
          simp only [Option.bind_some, ih]
          cases struck.1.strikeAll r with
          | none => rfl
          | some rest => simp [Function.comp_def, Bool.or_assoc]

/-- A stroke in the buffer with a shift inside the byte is carried out. -/
theorem strike_eq {index amount row column : Nat} (s : Screen) (byte : Byte) (d : Direction)
    (hplace : index = (place row column).val) (hamount : amount < 8) :
    s.strike ⟨index, byte, d, amount⟩ =
      some (s.flip (place row column) (Stroke.bits ⟨index, byte, d, amount⟩)) := by
  subst hplace
  exact dif_pos ⟨(place row column).isLt, hamount⟩

/-- The strokes of a row are carried out and draw the row. -/
theorem strikeAll_rowStrokes (s : Screen) (x y i : Nat) (bits : Byte) :
    s.strikeAll (rowStrokes x y i bits) = some (s.drawRow x (y + i) bits) := by
  have hleft : (y % 32 + i) % 32 * 8 + x % 64 / 8 = (place (y + i) (x / 8)).val := by
    show _ = (y + i) % 32 * 8 + x / 8 % 8
    omega
  have hright :
      (y % 32 + i) % 32 * 8 + (x % 64 / 8 + 1) % 8 = (place (y + i) (x / 8 + 1)).val := by
    show _ = (y + i) % 32 * 8 + (x / 8 + 1) % 8
    omega
  have hshift : x % 64 % 8 = x % 8 := by omega
  simp only [rowStrokes, drawRow, hshift, strikeAll,
    strike_eq _ _ _ hleft (Nat.mod_lt _ (by decide))]
  by_cases h : x % 8 = 0
  · simp [strikeAll, Stroke.bits, h]
  · have hback : 8 - x % 8 < 8 := by omega
    simp only [if_neg h, strikeAll, strike_eq _ _ _ hright hback, Option.bind_some,
      Option.map_some, Stroke.bits, Bool.or_false]

/-- The strokes of a sprite are carried out and draw the sprite. -/
theorem strikeAll_strokesFrom (sprite : List Byte) (x y : Nat) :
    ∀ (s : Screen) (i : Nat),
      s.strikeAll (strokesFrom x y i sprite) = some (s.drawRows x (y + i) sprite) := by
  induction sprite with
  | nil =>
      intro s i
      rfl
  | cons bits r ih =>
      intro s i
      rw [strokesFrom, strikeAll_append, strikeAll_rowStrokes, Option.bind_some, ih]
      rfl

/-! ## The blit -/

/-- **DRAWING IS A PIXEL-LEVEL EXCLUSIVE OR**, for every screen, every sprite of any
    length and every place: a pixel is inverted if the set bits that fall on it are
    odd in number, and a hit is reported if and only if some pixel is covered at
    least twice, or once when it was lit.  Drawing carries out its strokes, none of
    which lies outside the buffer or shifts a byte out of itself. -/
theorem draw_blit (s : Screen) (sprite : List Byte) (x y : Byte) :
    (∀ (px : Fin 64) (py : Fin 32), (s.draw sprite x y).1.pixel px py =
      (s.pixel px py ^^ decide (hits sprite x.toNat y.toNat px py % 2 = 1))) ∧
    ((s.draw sprite x y).2 = true ↔
      ∃ (px : Fin 64) (py : Fin 32), 2 ≤ hits sprite x.toNat y.toNat px py ∨
        (hits sprite x.toNat y.toNat px py = 1 ∧ s.pixel px py = true)) ∧
    s.strikeAll (strokesFrom x.toNat y.toNat 0 sprite) = some (s.draw sprite x y) :=
  ⟨fun px py => pixel_drawRows sprite x.toNat px py s y.toNat,
    drawRows_hit sprite x.toNat s y.toNat,
    strikeAll_strokesFrom sprite x.toNat y.toNat s 0⟩

end Chip8.Screen
