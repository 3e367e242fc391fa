import Chip8.Proofs.Blit

/-! # Sprites in a row — what does not depend on their order

    Each drawing inverts the pixels that its sprite covers an odd number of times.  So
    after any number of sprites a pixel is inverted if all of them together cover it an
    odd number of times, and one of them has reported a hit if and only if together they
    cover some pixel twice, or once where it was lit.  Both counts are sums over the
    sprites, and a sum does not depend on the order — while it does depend on the order
    which of the sprites reports the hit. -/

namespace Chip8.Screen

/-- A sprite and the place of its top left pixel. -/
structure Sprite where
  rows : List Byte
  x : Byte
  y : Byte
  deriving DecidableEq

/-- Draws sprites one after the other: the screen at last, and what each drawing has
    reported. -/
def drawAll (s : Screen) : List Sprite → Screen × List Bool
  | []     => (s, [])
  | p :: r =>
    let (s, hit) := s.draw p.rows p.x p.y
    let (s, reports) := drawAll s r
    (s, hit :: reports)

/-! ## Screens with the same pixels -/

/-- Screens that show the same picture are the same. -/
theorem ext_pixel {s s' : Screen}
    (h : ∀ (px : Fin 64) (py : Fin 32), s.pixel px py = s'.pixel px py) : s = s' := by
  suffices hcells : s.cells = s'.cells by
    cases s
    cases s'
    exact congrArg Screen.mk hcells
  apply Vector.ext
  intro i hi
  refine BitVec.eq_of_getMsbD_eq fun k hk => ?_
  -- the pixel that bit `k` of byte `i` shows
  have hpixel := h ⟨i % 8 * 8 + k, by omega⟩ ⟨i / 8, by omega⟩
  have hplace : place (i / 8) ((i % 8 * 8 + k) / 8) = ⟨i, hi⟩ := place_of_index ⟨i, hi⟩ hk
  have hmod : (i % 8 * 8 + k) % 8 = k := by omega
  simp only [pixel, hplace, hmod] at hpixel
  exact hpixel

/-- No pixel of the dark screen is lit. -/
theorem pixel_blank (px py : Nat) : blank.pixel px py = false := by
  show (Vector.replicate 256 0#8)[(place py (px / 8)).val].getMsbD (px % 8) = false
  rw [Vector.getElem_replicate, BitVec.getMsbD_zero]

/-! ## Sprites that cover something, and sprites that cover nothing twice -/

/-- A sprite with a byte that is not zero covers some pixel. -/
theorem exists_hits {sprite : List Byte} (h : ∃ b ∈ sprite, b ≠ 0) (x y : Nat) :
    ∃ (px : Fin 64) (py : Fin 32), 1 ≤ hits sprite x y px py := by
  induction sprite generalizing y with
  | nil =>
      obtain ⟨b, hb, -⟩ := h
      cases hb
  | cons bits r ih =>
      obtain ⟨b, hb, hne⟩ := h
      rcases List.mem_cons.mp hb with rfl | hrest
      · obtain ⟨k, hk, hbit⟩ := exists_getMsbD hne
        let px : Fin 64 := ⟨(x + k) % 64, by omega⟩
        let py : Fin 32 := ⟨y % 32, by omega⟩
        have hcolumn : (px.val + (64 - x % 64)) % 64 = k := by
          show ((x + k) % 64 + (64 - x % 64)) % 64 = k
          omega
        have hrow : py.val % 32 = y % 32 := Nat.mod_mod y 32
        have hink : inked b x y px py = true := by
          rw [inked, hcolumn, hbit, Bool.and_true]
          exact decide_eq_true hrow
        refine ⟨px, py, ?_⟩
        rw [hits_cons, hink]
        exact Nat.le_add_right 1 _
      · obtain ⟨px, py, hcovered⟩ := ih ⟨b, hrest, hne⟩ (y + 1)
        refine ⟨px, py, ?_⟩
        rw [hits_cons]
        exact Nat.le_trans hcovered (Nat.le_add_left _ _)

/-- A sprite does not cover a pixel if none of its rows falls on the row of the pixel. -/
theorem hits_eq_zero {sprite : List Byte} (x : Nat) {y : Nat} (px : Fin 64) {py : Fin 32}
    (h : ∀ k < sprite.length, (y + k) % 32 ≠ py.val) : hits sprite x y px py = 0 := by
  induction sprite generalizing y with
  | nil => rfl
  | cons bits r ih =>
      have hfirst : y % 32 ≠ py.val := h 0 (Nat.zero_lt_succ _)
      have hink : inked bits x y px py = false := by
        have hpy := py.isLt
        rw [inked, decide_eq_false (by omega), Bool.false_and]
      have hrest : ∀ k < r.length, (y + 1 + k) % 32 ≠ py.val := by
        intro k hk
        rw [Nat.add_assoc, Nat.add_comm 1 k]
        exact h (k + 1) (Nat.succ_lt_succ hk)
      rw [hits_cons, hink, ih hrest]
      rfl

/-- A sprite that is not higher than the screen covers no pixel twice. -/
theorem hits_le_one {sprite : List Byte} (h : sprite.length ≤ 32) (x y : Nat) (px : Fin 64)
    (py : Fin 32) : hits sprite x y px py ≤ 1 := by
  induction sprite generalizing y with
  | nil => exact Nat.zero_le 1
  | cons bits r ih =>
      rw [List.length_cons] at h
      rw [hits_cons]
      cases hink : inked bits x y px py with
      | false =>
          rw [Bool.toNat_false, Nat.zero_add]
          exact ih (by omega) (y + 1)
      | true =>
          rw [inked, Bool.and_eq_true, decide_eq_true_eq] at hink
          have hpy := py.isLt
          -- the rows below fall on the other rows of the screen
          have hrest : hits r x (y + 1) px py = 0 := hits_eq_zero x px fun k hk => by omega
          rw [Bool.toNat_true]
          omega

/-! ## All sprites together -/

/-- How many set bits of a sprite fall on a pixel. -/
def Sprite.hits (p : Sprite) (px py : Nat) : Nat :=
  Screen.hits p.rows p.x.toNat p.y.toNat px py

/-- A drawing inverts the pixels that the sprite covers an odd number of times. -/
theorem pixel_draw (p : Sprite) (s : Screen) (px : Fin 64) (py : Fin 32) :
    (s.draw p.rows p.x p.y).1.pixel px py =
      (s.pixel px py ^^ decide (p.hits px py % 2 = 1)) :=
  pixel_drawRows p.rows p.x.toNat px py s p.y.toNat

/-- A drawing hits if and only if the sprite covers some pixel twice, or once when it is
    lit. -/
theorem draw_hit (p : Sprite) (s : Screen) :
    (s.draw p.rows p.x p.y).2 = true ↔ ∃ (px : Fin 64) (py : Fin 32),
      2 ≤ p.hits px py ∨ (p.hits px py = 1 ∧ s.pixel px py = true) :=
  drawRows_hit p.rows p.x.toNat s p.y.toNat

/-- How many set bits of all sprites together fall on a pixel. -/
def allHits (sprites : List Sprite) (px py : Nat) : Nat :=
  sprites.foldr (fun p n => p.hits px py + n) 0

theorem allHits_cons (p : Sprite) (r : List Sprite) (px py : Nat) :
    allHits (p :: r) px py = p.hits px py + allHits r px py := rfl

/-- The count does not depend on the order. -/
theorem allHits_perm {sprites other : List Sprite} (h : other.Perm sprites) (px py : Nat) :
    allHits other px py = allHits sprites px py :=
  h.foldr_eq' (fun p _ q _ n => Nat.add_left_comm (q.hits px py) (p.hits px py) n) 0

theorem odd_add (n k : Nat) :
    decide ((n + k) % 2 = 1) = (decide (n % 2 = 1) ^^ decide (k % 2 = 1)) := by
  rcases Nat.mod_two_eq_zero_or_one n with hn | hn <;>
    rcases Nat.mod_two_eq_zero_or_one k with hk | hk <;> simp [Nat.add_mod, hn, hk]

/-- What a pixel tells about hits, when one sprite is drawn before others: `n` counts how
    often the sprite covers it, `k` how often the others do. -/
theorem collision_add (lit : Bool) (n k : Nat) :
    ((2 ≤ n ∨ (n = 1 ∧ lit = true)) ∨
        (2 ≤ k ∨ (k = 1 ∧ (lit ^^ decide (n % 2 = 1)) = true))) ↔
      (2 ≤ n + k ∨ (n + k = 1 ∧ lit = true)) := by
  rcases n with _ | _ | n
  · simp
  · cases lit <;> simp <;> omega
  · constructor
    · intro _
      exact Or.inl (by omega)
    · intro _
      exact Or.inl (Or.inl (by omega))

section Together

variable (sprites : List Sprite)

/-- Sprites in a row invert the pixels that they cover an odd number of times together. -/
theorem pixel_drawAll (s : Screen) (px : Fin 64) (py : Fin 32) :
    (s.drawAll sprites).1.pixel px py =
      (s.pixel px py ^^ decide (allHits sprites px py % 2 = 1)) := by
  induction sprites generalizing s with
  | nil => exact (Bool.xor_false _).symm
  | cons p r ih =>
      show ((s.draw p.rows p.x p.y).1.drawAll r).1.pixel px py = _
      rw [ih, pixel_draw, allHits_cons, odd_add, Bool.xor_assoc]

/-- One of the sprites hits if and only if together they cover some pixel twice, or once
    when it is lit. -/
theorem drawAll_hit (s : Screen) :
    (s.drawAll sprites).2.any id = true ↔ ∃ (px : Fin 64) (py : Fin 32),
      2 ≤ allHits sprites px py ∨ (allHits sprites px py = 1 ∧ s.pixel px py = true) := by
  induction sprites generalizing s with
  | nil =>
      constructor
      · intro h
        cases h
      · rintro ⟨px, py, h | ⟨h, -⟩⟩
        · exact absurd h (Nat.not_succ_le_zero 1)
        · cases h
  | cons p r ih =>
      show ((s.draw p.rows p.x p.y).2 || ((s.draw p.rows p.x p.y).1.drawAll r).2.any id) = true ↔ _
      rw [Bool.or_eq_true, draw_hit, ih]
      simp only [pixel_draw, allHits_cons, ← collision_add]
      constructor
      · rintro (⟨px, py, h⟩ | ⟨px, py, h⟩)
        · exact ⟨px, py, Or.inl h⟩
        · exact ⟨px, py, Or.inr h⟩
      · rintro ⟨px, py, h | h⟩
        · exact Or.inl ⟨px, py, h⟩
        · exact Or.inr ⟨px, py, h⟩

variable {sprites} {other : List Sprite} (h : other.Perm sprites)
include h

/-- In another order, the sprites make the same picture. -/
theorem drawAll_perm (s : Screen) : (s.drawAll other).1 = (s.drawAll sprites).1 := by
  refine ext_pixel fun px py => ?_
  rw [pixel_drawAll, pixel_drawAll, allHits_perm h]

/-- In another order, one of the sprites hits if one of them did before. -/
theorem drawAll_hit_perm (s : Screen) :
    (s.drawAll other).2.any id = (s.drawAll sprites).2.any id := by
  rw [Bool.eq_iff_iff, drawAll_hit, drawAll_hit]
  simp only [allHits_perm h]

end Together

/-! ## The same sprite twice -/

theorem allHits_twice (p : Sprite) (px py : Nat) : allHits [p, p] px py = 2 * p.hits px py := by
  rw [allHits_cons, allHits_cons, show allHits [] px py = 0 from rfl]
  omega

/-- A sprite that is drawn twice leaves no trace. -/
theorem drawAll_twice (s : Screen) (p : Sprite) : (s.drawAll [p, p]).1 = s := by
  refine ext_pixel fun px py => ?_
  have heven : 2 * p.hits px py % 2 ≠ 1 := by omega
  rw [pixel_drawAll, allHits_twice, decide_eq_false heven, Bool.xor_false]

/-- Drawn twice, a sprite that covers anything hits at least once. -/
theorem drawAll_twice_hit (s : Screen) {p : Sprite} (h : ∃ b ∈ p.rows, b ≠ 0) :
    (s.drawAll [p, p]).2.any id = true := by
  obtain ⟨px, py, hcovered⟩ := exists_hits h p.x.toNat p.y.toNat
  have honce : 1 ≤ p.hits px py := hcovered
  refine (drawAll_hit _ s).mpr ⟨px, py, Or.inl ?_⟩
  rw [allHits_twice]
  omega

/-- On the dark screen, a sprite that is not higher than the screen hits nothing. -/
theorem draw_blank_hit {p : Sprite} (h : p.rows.length ≤ 32) :
    (blank.draw p.rows p.x p.y).2 = false := by
  rw [← Bool.not_eq_true]
  intro hhit
  obtain ⟨px, py, htwice | ⟨-, hlit⟩⟩ := (draw_hit p blank).mp hhit
  · have honce : p.hits px py ≤ 1 := hits_le_one h p.x.toNat p.y.toNat px py
    omega
  · rw [pixel_blank] at hlit
    cases hlit

/-- **SPRITES IN ANY ORDER**: from every screen, sprites of any length at any places make
    the same picture in every order, and in every order some of them reports a hit or in
    none.  In particular a sprite drawn twice at the same place leaves the screen as it
    was; one of the two drawings hits if the sprite has a byte that is not zero; and on the
    dark screen it is the second one, if the sprite is not higher than the screen. -/
theorem sprites_any_order (s : Screen) :
    (∀ sprites other : List Sprite, other.Perm sprites →
      (s.drawAll other).1 = (s.drawAll sprites).1 ∧
      (s.drawAll other).2.any id = (s.drawAll sprites).2.any id) ∧
    (∀ p : Sprite,
      let first := s.draw p.rows p.x p.y
      let second := first.1.draw p.rows p.x p.y
      second.1 = s ∧
      ((∃ b ∈ p.rows, b ≠ 0) → first.2 = true ∨ second.2 = true) ∧
      (s = blank → (∃ b ∈ p.rows, b ≠ 0) → p.rows.length ≤ 32 →
        first.2 = false ∧ second.2 = true)) := by
  refine ⟨fun sprites other h => ⟨drawAll_perm h s, drawAll_hit_perm h s⟩, fun p => ?_⟩
  intro first second
  have hsome : (∃ b ∈ p.rows, b ≠ 0) → first.2 = true ∨ second.2 = true := by
    intro h
    have hany : (first.2 || (second.2 || false)) = true := drawAll_twice_hit s h
    rwa [Bool.or_false, Bool.or_eq_true] at hany
  refine ⟨drawAll_twice s p, hsome, ?_⟩
  rintro rfl h hheight
  have hfirst : first.2 = false := draw_blank_hit hheight
  refine ⟨hfirst, ?_⟩
  rcases hsome h with hhit | hhit
  · rw [hfirst] at hhit
    cases hhit
  · exact hhit

/-- Three sprites in two orders make the same picture, and there is a hit each time; but
    the sprite `c` hits only in the first order. -/
theorem sprites_any_order_three :
    let a : Sprite := ⟨[0x80], 0, 0⟩
    let b : Sprite := ⟨[0xC0, 0x01], 0, 0⟩
    let c : Sprite := ⟨[0x80], 65, 32⟩
    [a, c, b].Perm [a, b, c] ∧
      (blank.drawAll [a, b, c]).2 = [false, true, true] ∧
      (blank.drawAll [a, c, b]).2 = [false, false, true] ∧
      (blank.drawAll [a, c, b]).1 = (blank.drawAll [a, b, c]).1 ∧
      (blank.draw b.rows b.x b.y).2 = false := by
  intro a b c
  have hperm : [a, c, b].Perm [a, b, c] := List.Perm.cons a (List.Perm.swap b c [])
  have hblank := sprites_any_order blank
  refine ⟨hperm, by decide +kernel, by decide +kernel, (hblank.1 _ _ hperm).1, ?_⟩
  · exact ((hblank.2 b).2.2 rfl ⟨0xC0, List.mem_cons_self, by decide⟩ (by decide)).1

end Chip8.Screen
