import Chip8.Proofs.Atomicity
import Chip8.Proofs.Ranges
import Chip8.Proofs.Sprites

/-! # Drawing — from memory onto the screen, and what the flag tells

    To draw, the machine reads as many bytes as the instruction names, from the address
    register on, and draws them at the place that two registers give; then it sets the
    flag register to whether a lit pixel went dark.  The place is read first, so the flag
    register can give a coordinate.  Drawing adds the flag up from halves of sprite bytes.
    As long as the sprite is not higher than the screen, no pixel is covered twice, and
    what the flag tells can be seen on the screen as it was: whether a set bit of the
    sprite falls on a lit pixel. -/

namespace Chip8

namespace Screen

/-! ## Hits of a sprite that is not higher than the screen -/

theorem mem_bitPlaces {rows k b : Nat} : (k, b) ∈ bitPlaces rows ↔ k < rows ∧ b < 8 := by
  simp only [bitPlaces, List.mem_flatMap, List.mem_map, List.mem_range, Prod.mk.injEq]
  constructor
  · rintro ⟨k', hk, b', hb, rfl, rfl⟩
    exact ⟨hk, hb⟩
  · rintro ⟨hk, hb⟩
    exact ⟨k, hk, b, hb, rfl, rfl⟩

/-- A sprite covers a pixel if and only if one of its set bits falls there. -/
theorem hits_pos_iff {sprite : List Byte} {x y px py : Nat} :
    0 < hits sprite x y px py ↔ ∃ k < sprite.length, ∃ b < 8,
      (sprite.getD k 0).getLsbD (7 - b) = true ∧ (x + b) % 64 = px ∧ (y + k) % 32 = py := by
  rw [hits, List.countP_pos_iff]
  constructor
  · rintro ⟨⟨k, b⟩, hplace, hfalls⟩
    obtain ⟨hk, hb⟩ := mem_bitPlaces.mp hplace
    simp only [Bool.and_eq_true, beq_iff_eq] at hfalls
    exact ⟨k, hk, b, hb, hfalls.1.1, hfalls.1.2, hfalls.2⟩
  · rintro ⟨k, hk, b, hb, hset, hcolumn, hrow⟩
    refine ⟨(k, b), mem_bitPlaces.mpr ⟨hk, hb⟩, ?_⟩
    simp only [Bool.and_eq_true, beq_iff_eq]
    exact ⟨⟨hset, hcolumn⟩, hrow⟩

/-- A sprite that is not higher than the screen hits if and only if one of its set bits
    falls on a lit pixel. -/
theorem draw_hit_iff {s : Screen} {sprite : List Byte} (h : sprite.length ≤ 32) (x y : Byte) :
    (s.draw sprite x y).2 = true ↔ ∃ k < sprite.length, ∃ b < 8,
      (sprite.getD k 0).getLsbD (7 - b) = true ∧
        s.pixel ((x.toNat + b) % 64) ((y.toNat + k) % 32) = true := by
  rw [show (s.draw sprite x y).2 = (s.drawRows x.toNat y.toNat sprite).2 from rfl, drawRows_hit]
  constructor
  · rintro ⟨px, py, hcovered⟩
    have honce : hits sprite x.toNat y.toNat px py ≤ 1 := hits_le_one h _ _ px py
    rcases hcovered with htwice | ⟨hone, hlit⟩
    · omega
    · have hpos : 0 < hits sprite x.toNat y.toNat px py := by omega
      obtain ⟨k, hk, b, hb, hset, hcolumn, hrow⟩ := hits_pos_iff.mp hpos
      refine ⟨k, hk, b, hb, hset, ?_⟩
      rw [hcolumn, hrow]
      exact hlit
  · rintro ⟨k, hk, b, hb, hset, hlit⟩
    let px : Fin 64 := ⟨(x.toNat + b) % 64, by omega⟩
    let py : Fin 32 := ⟨(y.toNat + k) % 32, by omega⟩
    have hpos : 0 < hits sprite x.toNat y.toNat px py :=
      hits_pos_iff.mpr ⟨k, hk, b, hb, hset, rfl, rfl⟩
    have honce : hits sprite x.toNat y.toNat px py ≤ 1 := hits_le_one h _ _ px py
    exact ⟨px, py, Or.inr ⟨by omega, hlit⟩⟩

end Screen

namespace Machine

/-! ## The machine draws -/

/-- The sprite of so many rows that the machine would draw now. -/
def sprite (m : Machine) (rows : Nat) : List Byte :=
  (List.range rows).map fun k => m.memory.cells[cellFrom m.registers.index k]

theorem length_sprite (m : Machine) (rows : Nat) : (m.sprite rows).length = rows := by
  rw [sprite, List.length_map, List.length_range]

/-- The bytes that are drawn are read in full, since a row count has eight bits. -/
theorem readRange_eq_sprite (m : Machine) (rows : Byte) :
    m.memory.readRange m.registers.index rows.toNat = m.sprite rows.toNat := by
  have hrows := rows.isLt
  rw [Memory.readRange_eq, Nat.mod_eq_of_lt (by omega), sprite]

/-- **DRAWING**: in every machine and for every row count, drawing completes; it replaces
    the screen by the one with the bytes from the address register on drawn at the place
    that the two registers held before, sets the flag register to 1 or 0 as the drawing
    hits or not, goes on at the next word and changes nothing else.  Up to the height of
    the screen the flag becomes 1 if and only if a set bit of the sprite falls on a pixel
    that was lit before. -/
theorem draw_from_memory (m : Machine) (x y rows : Byte) :
    let r := m.registers
    let sprite := m.sprite rows.toNat
    let drawn := m.screen.draw sprite (r.get x) (r.get y)
    let after := { m with
      screen := drawn.1
      registers := { r with
        v := r.v.set 15 (if drawn.2 then 1 else 0)
        pc := BitVec.ofNat 16 ((r.pc.toNat + 2) % 4096) } }
    m.perform (.draw x y rows) = (.ok (), after) ∧
    (rows.toNat ≤ 32 → (after.registers.v[15] = 1 ↔
      ∃ k < rows.toNat, ∃ b < 8, (sprite.getD k 0).getLsbD (7 - b) = true ∧
        m.screen.pixel (((r.get x).toNat + b) % 64) (((r.get y).toNat + k) % 32) = true)) := by
  intro r sprite drawn after
  constructor
  · simp only [perform, execute, drawSprite, readRange_eq_sprite, Flow.target, offset_eq_ofNat]
    rfl
  · intro hheight
    have hlength : sprite.length = rows.toNat := m.length_sprite rows.toNat
    have hflag : after.registers.v[15] = 1 ↔ drawn.2 = true := by
      show (r.v.set 15 (if drawn.2 then 1 else 0))[15] = 1 ↔ drawn.2 = true
      rw [Vector.getElem_set_self]
      cases drawn.2 <;> decide
    rw [hflag, ← hlength]
    exact Screen.draw_hit_iff (hlength ▸ hheight) (r.get x) (r.get y)

/-- Two rows around the end of memory, drawn at a column that the flag register gives and
    around two edges: the second row is the first of the font, and its third bit falls on
    the only pixel that is lit. -/
theorem draw_from_memory_corner :
    let m := { idle .absent with
      screen := ⟨(Vector.replicate 256 0).set 0 0x80⟩
      registers := { Registers.initial with
        v := (Registers.initial.v.set 15 62).set 1 31
        index := 0xFFFF } }
    m.registers.get 0xF = 62 ∧ m.sprite 2 = [0x00, 0xF0] ∧
      (m.perform (.draw 0xF 1 2)).2.registers.v[15] = 1 := by
  intro m
  have hcell : ∀ a k, m.memory.cells[cellFrom a k] = Memory.font[(a.toNat + k) % 4096]?.getD 0 := by
    intro a k
    have hread := Memory.read_blank (offset a (BitVec.ofNat 16 k))
    simp only [Memory.read, cell_offset] at hread
    exact hread
  have hsprite : m.sprite 2 = [0x00, 0xF0] := by
    show [m.memory.cells[cellFrom 0xFFFF 0], m.memory.cells[cellFrom 0xFFFF 1]] = _
    rw [hcell, hcell]
    decide
  have hcolumn : ((m.registers.get 0xF).toNat + 2) % 64 = 0 := by decide
  have hrow : ((m.registers.get 1).toNat + 1) % 32 = 0 := by decide
  obtain ⟨hperform, hflag⟩ := draw_from_memory m 0xF 1 2
  refine ⟨rfl, hsprite, ?_⟩
  rw [hperform]
  refine (hflag (by decide)).mpr ⟨1, Nat.one_lt_two, 2, by decide, ?_, ?_⟩
  · show ((m.sprite 2).getD 1 0).getLsbD 5 = true
    rw [hsprite]
    rfl
  · rw [hcolumn, hrow]
    decide +kernel

end Machine

end Chip8
