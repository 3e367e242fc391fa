import Chip8.Proofs.Atomicity
import Mathlib.Data.List.Induction

/-! # Held keys — what was pressed and has not been let go since

    A pad keeps a set of held keys and no list of what was done to it, but the set tells: a
    key is in it if and only if it was pressed and not released later.  Codes above 15 name
    no key, so they put nothing into the set, take nothing out and are never held; closing
    the pad leaves the set alone.  The two instructions that ask for a key read the set just
    so, and one of them skips exactly when the other does not. -/

namespace Chip8

namespace Keys

/-! ## Sets of keys -/

/-- Only a code above 15 names no key. -/
theorem isEmpty_ofCode (code : Byte) : isEmpty (ofCode code) = decide (15 < code.toNat) := by
  by_cases h : code.toNat ≤ 15
  · have hbit : (ofCode code).getLsbD code.toNat = true := by
      rw [getLsbD_ofCode, decide_eq_true rfl, decide_eq_true h, Bool.and_self]
    have hne : ofCode code ≠ 0 := by
      intro hzero
      rw [hzero, BitVec.ofNat_eq_ofNat, BitVec.getLsbD_zero] at hbit
      cases hbit
    rw [isEmpty, beq_eq_false_iff_ne.mpr hne, decide_eq_false (Nat.not_lt.mpr h)]
  · rw [isEmpty, ofCode, if_neg h, beq_self_eq_true, decide_eq_true (Nat.lt_of_not_le h)]

/-- A key is in a set if its bit is set. -/
theorem contains_ofCode (keys : Keys) {code : Byte} (h : code.toNat ≤ 15) :
    contains keys (ofCode code) = keys.getLsbD code.toNat := by
  rw [contains, Bool.eq_iff_iff, beq_iff_eq]
  constructor
  · intro heq
    have hbit : (keys &&& ofCode code).getLsbD code.toNat = (ofCode code).getLsbD code.toNat := by
      rw [heq]
    rwa [BitVec.getLsbD_and, getLsbD_ofCode, decide_eq_true rfl, decide_eq_true h, Bool.and_self,
      Bool.and_true] at hbit
  · intro hset
    apply BitVec.eq_of_getLsbD_eq
    intro k _
    rw [BitVec.getLsbD_and, getLsbD_ofCode]
    by_cases hk : k = code.toNat
    · rw [hk, hset, Bool.true_and]
    · rw [decide_eq_false hk, Bool.false_and, Bool.and_false]

/-- The key of a code is down if the code names one and its bit is set. -/
theorem isDown_eq (keys : Keys) (code : Byte) :
    keys.isDown code = (decide (code.toNat ≤ 15) && keys.getLsbD code.toNat) := by
  rw [isDown, isEmpty_ofCode]
  by_cases h : code.toNat ≤ 15
  · rw [contains_ofCode keys h, decide_eq_false (Nat.not_lt.mpr h), decide_eq_true h,
      Bool.not_false]
  · rw [decide_eq_true (Nat.lt_of_not_le h), decide_eq_false h, Bool.not_true, Bool.false_and,
      Bool.false_and]

/-- A code above 15 is never held. -/
theorem isDown_of_lt (keys : Keys) {code : Byte} (h : 15 < code.toNat) :
    keys.isDown code = false := by
  rw [isDown_eq, decide_eq_false (by omega), Bool.false_and]

theorem ofCode_of_lt {code : Byte} (h : 15 < code.toNat) : ofCode code = 0 := if_neg (by omega)

theorem erase_of_lt (keys : Keys) {code : Byte} (h : 15 < code.toNat) :
    keys.erase code = keys := by
  rw [erase, ofCode_of_lt h]
  show keys &&& ~~~0#16 = keys
  rw [BitVec.not_zero, BitVec.and_allOnes]

section Key

variable (keys : Keys) (code : Byte) {k : Byte} (hk : k.toNat ≤ 15)
include hk

/-- A code stands for the key whose code it is. -/
theorem getLsbD_ofCode_key : (ofCode code).getLsbD k.toNat = true ↔ code = k := by
  have hsame : k.toNat = code.toNat ↔ code = k := by rw [BitVec.toNat_inj, eq_comm]
  rw [getLsbD_ofCode, Bool.and_eq_true, decide_eq_true_eq, decide_eq_true_eq, hsame]
  constructor
  · rintro ⟨rfl, -⟩
    rfl
  · rintro rfl
    exact ⟨rfl, hk⟩

theorem getLsbD_insert :
    (keys.insert code).getLsbD k.toNat = true ↔ code = k ∨ keys.getLsbD k.toNat = true := by
  rw [insert, BitVec.getLsbD_or, Bool.or_eq_true, getLsbD_ofCode_key code hk, or_comm]

theorem getLsbD_erase :
    (keys.erase code).getLsbD k.toNat = true ↔ code ≠ k ∧ keys.getLsbD k.toNat = true := by
  have hbit : decide (k.toNat < 16) = true := decide_eq_true (by omega)
  rw [erase, BitVec.getLsbD_and, BitVec.getLsbD_not, hbit, Bool.true_and, Bool.and_eq_true,
    Bool.not_eq_true', ← Bool.not_eq_true, getLsbD_ofCode_key code hk, and_comm]

end Key

end Keys

/-! ## The set and its history -/

/-- The key has been pressed and not been released later. -/
def HeldAfter (events : List PadEvent) (k : Byte) : Prop :=
  ∃ before behind, events = before ++ .press k :: behind ∧ .release k ∉ behind

theorem not_heldAfter_nil (k : Byte) : ¬ HeldAfter [] k := by
  rintro ⟨before, behind, hsplit, -⟩
  simp at hsplit

/-- One more event: the key is pressed, or it has been held and is not released. -/
theorem heldAfter_append_singleton (events : List PadEvent) (e : PadEvent) (k : Byte) :
    HeldAfter (events ++ [e]) k ↔ e = .press k ∨ (e ≠ .release k ∧ HeldAfter events k) := by
  constructor
  · rintro ⟨before, behind, hsplit, hkept⟩
    rcases List.eq_nil_or_concat behind with rfl | ⟨front, last, rfl⟩
    · have hlast := List.append_inj_right' hsplit rfl
      exact Or.inl (List.cons.inj hlast).1
    · rw [List.concat_eq_append] at hsplit hkept
      rw [← List.cons_append, ← List.append_assoc] at hsplit
      obtain ⟨hfront, hlast⟩ := List.append_inj' hsplit rfl
      obtain rfl := (List.cons.inj hlast).1
      rw [List.mem_append, not_or, List.mem_singleton] at hkept
      exact Or.inr ⟨fun he => hkept.2 he.symm, before, front, hfront, hkept.1⟩
  · rintro (rfl | ⟨he, before, behind, rfl, hkept⟩)
    · exact ⟨events, [], rfl, List.not_mem_nil⟩
    · refine ⟨before, behind ++ [e], by simp, ?_⟩
      rw [List.mem_append, not_or, List.mem_singleton]
      exact ⟨hkept, fun hrelease => he hrelease.symm⟩

namespace SharedPad

/-- Closing the pad leaves the set alone, and so does a code that names no key. -/
theorem down_of_no_key (p : SharedPad) {code : Byte} (h : 15 < code.toNat) :
    (p.press code).down = p.down ∧ (p.release code).down = p.down := by
  constructor
  · rw [press, if_neg (by omega)]
  · exact Keys.erase_of_lt p.down h

/-- What an event does to the set, key by key. -/
theorem getLsbD_down_apply (p : SharedPad) (e : PadEvent) {k : Byte} (hk : k.toNat ≤ 15) :
    (p.apply e).down.getLsbD k.toNat = true ↔
      e = .press k ∨ (e ≠ .release k ∧ p.down.getLsbD k.toNat = true) := by
  cases e with
  | press code =>
      by_cases hcode : code.toNat ≤ 15
      · have hpress : (p.press code).down = p.down.insert code := by rw [press, if_pos hcode]
        show (p.press code).down.getLsbD k.toNat = true ↔ _
        rw [hpress, Keys.getLsbD_insert p.down code hk]
        simp
      · have hother : code ≠ k := by
          rintro rfl
          exact hcode hk
        show (p.press code).down.getLsbD k.toNat = true ↔ _
        rw [(p.down_of_no_key (by omega)).1]
        simp [hother]
  | release code =>
      show (p.down.erase code).getLsbD k.toNat = true ↔ _
      rw [Keys.getLsbD_erase p.down code hk]
      simp
  | close =>
      show p.down.getLsbD k.toNat = true ↔ _
      simp

/-- After any events, a key is in the set if and only if it was pressed last. -/
theorem getLsbD_down_applyAll (events : List PadEvent) {k : Byte} (hk : k.toNat ≤ 15) :
    (fresh.applyAll events).down.getLsbD k.toNat = true ↔ HeldAfter events k := by
  induction events using List.reverseRecOn with
  | nil =>
      refine iff_of_false ?_ (not_heldAfter_nil k)
      show ¬ (0 : Keys).getLsbD k.toNat = true
      simp
  | append_singleton events e ih =>
      have hlast : fresh.applyAll (events ++ [e]) = (fresh.applyAll events).apply e := by
        rw [applyAll, List.foldl_append, ← applyAll]
        rfl
      rw [hlast, getLsbD_down_apply _ e hk, ih, heldAfter_append_singleton]

end SharedPad

/-! ## Asking for a key -/

namespace Machine

/-- The instruction leaves the next one out, and does nothing else. -/
def Skips (m : Machine) (t : Test) : Prop :=
  m.perform (.skip t) = (.ok (), m.goTo (offset m.registers.pc 4))

/-- The instruction goes on with the next one, and does nothing else. -/
def GoesThrough (m : Machine) (t : Test) : Prop :=
  m.perform (.skip t) = (.ok (), m.goTo (offset m.registers.pc 2))

theorem perform_skip (m : Machine) (t : Test) :
    m.perform (.skip t) = (.ok (), m.goTo ((Flow.skipIf (m.holds t)).target m.registers.pc)) := rfl

theorem offset_four_ne (a : Word) : offset a 4 ≠ offset a 2 := by
  intro h
  have hnat := congrArg BitVec.toNat h
  rw [toNat_offset, toNat_offset] at hnat
  have h4 : (4 : Word).toNat = 4 := rfl
  have h2 : (2 : Word).toNat = 2 := rfl
  omega

/-- A skip skips if and only if its test holds, and goes through otherwise. -/
theorem skips_iff (m : Machine) (t : Test) :
    (m.Skips t ↔ m.holds t = true) ∧ (m.GoesThrough t ↔ m.holds t = false) := by
  rw [Skips, GoesThrough, perform_skip]
  cases m.holds t with
  | true =>
      refine ⟨iff_of_true rfl rfl, iff_of_false ?_ Bool.noConfusion⟩
      intro h
      exact offset_four_ne m.registers.pc (congrArg (·.2.registers.pc) h)
  | false =>
      refine ⟨iff_of_false ?_ Bool.noConfusion, iff_of_true rfl rfl⟩
      intro h
      exact offset_four_ne m.registers.pc (congrArg (·.2.registers.pc) h).symm

theorem holds_keyDown_iff (m : Machine) (x : Byte) :
    m.holds (.keyDown x) = true ↔ (m.registers.get x).toNat ≤ 15 ∧
      m.keypad.held.getLsbD (m.registers.get x).toNat = true := by
  rw [holds, Keys.isDown_eq, Bool.and_eq_true, decide_eq_true_eq]

end Machine

/-- **HELD KEYS**: after any presses, releases and closing of a fresh pad, a key is in its set if
    and only if it was pressed and not released later; closing and the codes above 15 leave the
    set of every pad alone, and no such code is down in any set.  In every machine, the skip on
    a held key skips if and only if its register names a key and that key is in the set of the
    keypad, the skip on a key that is not held skips if and only if the other one does not, and
    a skip that does not skip goes through; so over a shared pad they tell what has been
    pressed and not released later. -/
theorem held_keys_told :
    (∀ (events : List PadEvent) (k : Byte), k.toNat ≤ 15 →
      ((SharedPad.fresh.applyAll events).down.getLsbD k.toNat = true ↔ HeldAfter events k)) ∧
    (∀ p : SharedPad, p.close.down = p.down ∧
      ∀ code : Byte, 15 < code.toNat →
        (p.press code).down = p.down ∧ (p.release code).down = p.down) ∧
    (∀ (keys : Keys) (code : Byte), 15 < code.toNat → keys.isDown code = false) ∧
    (∀ (m : Machine) (x : Byte), let k := m.registers.get x
      (m.Skips (.keyDown x) ↔ k.toNat ≤ 15 ∧ m.keypad.held.getLsbD k.toNat = true) ∧
      (m.Skips (.keyUp x) ↔ ¬ m.Skips (.keyDown x)) ∧
      (∀ t, m.GoesThrough t ↔ ¬ m.Skips t) ∧
      ∀ events coming, m.keypad = .shared (SharedPad.fresh.applyAll events) coming →
        (m.Skips (.keyDown x) ↔ k.toNat ≤ 15 ∧ HeldAfter events k)) := by
  refine ⟨fun events k hk => SharedPad.getLsbD_down_applyAll events hk,
    fun p => ⟨rfl, fun code h => p.down_of_no_key h⟩, fun keys code h => keys.isDown_of_lt h, ?_⟩
  intro m x k
  have hdown : m.Skips (.keyDown x) ↔
      k.toNat ≤ 15 ∧ m.keypad.held.getLsbD k.toNat = true :=
    (m.skips_iff _).1.trans (m.holds_keyDown_iff x)
  refine ⟨hdown, ?_, ?_, ?_⟩
  · have hnot : m.holds (.keyUp x) = !m.holds (.keyDown x) := rfl
    rw [(m.skips_iff _).1, (m.skips_iff _).1, hnot, Bool.not_eq_true', Bool.not_eq_true]
  · intro t
    rw [(m.skips_iff t).1, (m.skips_iff t).2, Bool.not_eq_true]
  · intro events coming hpad
    rw [hdown, hpad]
    refine and_congr_right fun hk => ?_
    exact SharedPad.getLsbD_down_applyAll events hk

/-- A key is pressed again after its release, a code that names no key has its low digit, and
    the pad is closed: the first register names the key, and the second the code. -/
theorem held_keys_told_again :
    let events : List PadEvent :=
      [.press 5, .press 0xB, .release 5, .press 5, .release 0x15, .release 0xB, .close]
    let pad := SharedPad.fresh.applyAll events
    let m := ((Machine.idle (.shared pad [])).setReg 1 5).setReg 2 0x15
    ((5 : Byte).toNat ≤ 15 ∧ pad.down.getLsbD (5 : Byte).toNat = true) ∧
      (15 < (0x15 : Byte).toNat ∧ pad.down.isDown 0x15 = false ∧
        (pad.release 0x15).down = pad.down) ∧
      (m.keypad = .shared pad [] ∧ m.Skips (.keyDown 1)) ∧
      m.Skips (.keyUp 2) := by
  intro events pad m
  obtain ⟨hset, hsame, hnone, hskips⟩ := held_keys_told
  have hkey : (5 : Byte).toNat ≤ 15 := by decide
  have hcode : 15 < (0x15 : Byte).toNat := by decide
  have hheld : HeldAfter events 5 :=
    ⟨[.press 5, .press 0xB, .release 5], [.release 0x15, .release 0xB, .close], rfl, by decide⟩
  have hpad : m.keypad = .shared pad [] := rfl
  have hfive : m.registers.get 1 = 5 := rfl
  have hother : m.registers.get 2 = 0x15 := rfl
  refine ⟨⟨hkey, (hset events 5 hkey).mpr hheld⟩, ⟨hcode, hnone pad.down _ hcode,
    ((hsame pad).2 _ hcode).2⟩, ⟨hpad, ?_⟩, ?_⟩
  · obtain ⟨-, -, -, hshared⟩ := hskips m 1
    refine (hshared events [] hpad).mpr ?_
    rw [hfive]
    exact ⟨hkey, hheld⟩
  · obtain ⟨hdown, hup, -⟩ := hskips m 2
    rw [hup, hdown, hother]
    rintro ⟨hle, -⟩
    exact absurd hcode (Nat.not_lt_of_le hle)

end Chip8
