import Chip8.Proofs.Marks
import Chip8.Proofs.Meaning
import Mathlib.Data.List.Induction
import Mathlib.Data.Nat.Digits.Defs

/-! # Literals — which tokens are numbers and registers

    A number is one to eight hexadecimal digits, with or without one mark `0X` in front; a
    register is the letter `V` and such digits, without a mark.  The readers of bytes,
    nibbles, addresses and registers find the same numbers and differ only in the bound up
    to which they take them and in how they refuse the rest.  The shape of a token is found
    by counting characters, and it agrees with them: what looks like an address is one, and
    what is read as a register looks like one (`Token.literals_exact`). -/

namespace Chip8

namespace Text

/-! ## Digits by their place -/

/-- The digits, capital and small. -/
def alphabet : Text := "0123456789ABCDEFabcdef".toList

/-- Which of the sixteen digits a character is, capital or small. -/
def rank (c : Char) : Nat := "0123456789ABCDEF".toList.idxOf c.toUpper

/-- The text is one to eight digits, and with the last one in the lowest place they make the
    number. -/
structure Spells (t : Text) (n : Nat) : Prop where
  width : 1 ≤ t.length ∧ t.length ≤ 8
  digits : ∀ c ∈ t, c ∈ alphabet
  value : Nat.ofDigits 16 (t.reverse.map rank) = n

theorem isHexDigit_iff {c : Char} : isHexDigit c = true ↔ c ∈ alphabet := by
  constructor
  · intro h
    have hcode := toNat_of_isHexDigit h
    have all : ∀ n ∈ List.range 103,
        isHexDigit (Char.ofNat n) = true → Char.ofNat n ∈ alphabet := by decide
    have hc := all c.toNat (List.mem_range.mpr (by omega))
    rw [Char.ofNat_toNat] at hc
    exact hc h
  · have all : alphabet.all isHexDigit = true := by decide
    exact List.all_eq_true.mp all c

theorem digitValue_eq_rank {c : Char} (h : c ∈ alphabet) : digitValue c = rank c := by
  have all : alphabet.all (fun c => digitValue c == rank c) = true := by decide
  exact eq_of_beq (List.all_eq_true.mp all c h)

/-- Reading from the left is adding up the digits by their place. -/
theorem hexValue_eq_ofDigits {t : Text} (h : ∀ c ∈ t, c ∈ alphabet) :
    hexValue t = Nat.ofDigits 16 (t.reverse.map rank) := by
  induction t using List.reverseRecOn with
  | nil => rfl
  | append_singleton t c ih =>
      have hfront : ∀ d ∈ t, d ∈ alphabet := fun d hd => h d (List.mem_append_left _ hd)
      have hlast : c ∈ alphabet := h c (List.mem_append_right _ List.mem_cons_self)
      rw [hexValue_append_digit, ih hfront, digitValue_eq_rank hlast, List.reverse_append,
        List.reverse_singleton, List.singleton_append, List.map_cons, Nat.ofDigits_cons]
      omega

theorem spells_iff {t : Text} {n : Nat} :
    Spells t n ↔ (t ≠ [] ∧ t.length ≤ 8 ∧ t.all isHexDigit = true) ∧ hexValue t = n := by
  have hdigits : t.all isHexDigit = true ↔ ∀ c ∈ t, c ∈ alphabet := by
    simp only [List.all_eq_true, isHexDigit_iff]
  rw [hdigits]
  constructor
  · intro h
    refine ⟨⟨List.length_pos_iff.mp h.width.1, h.width.2, h.digits⟩, ?_⟩
    rw [hexValue_eq_ofDigits h.digits, h.value]
  · rintro ⟨⟨hne, hwidth, hdigits⟩, hvalue⟩
    refine ⟨⟨List.length_pos_iff.mpr hne, hwidth⟩, hdigits, ?_⟩
    rw [← hexValue_eq_ofDigits hdigits, hvalue]

theorem Spells.isHexDigit {t : Text} {n : Nat} (h : Spells t n) :
    ∀ c ∈ t, isHexDigit c = true := fun c hc => isHexDigit_iff.mpr (h.digits c hc)

/-- Eight digits stay within 32 bits. -/
theorem Spells.lt {t : Text} {n : Nat} (h : Spells t n) : n < 2 ^ 32 := by
  calc n = hexValue t := (spells_iff.mp h).2.symm
    _ < 16 ^ t.length := hexValue_lt h.isHexDigit
    _ ≤ 16 ^ 8 := Nat.pow_le_pow_right (by decide) h.width.2
    _ = 2 ^ 32 := by decide

end Text

namespace Token

open Text

/-! ## Numbers and indices -/

theorem unmarked_eq (t : Text) :
    unmarked t = if "0X".toList.isPrefixOf t then t.drop 2 else t := by
  unfold unmarked
  split
  · rfl
  · rename_i hmark
    refine (if_neg fun hprefix => ?_).symm
    obtain ⟨r, rfl⟩ := List.isPrefixOf_iff_prefix.mp hprefix
    exact hmark r rfl

theorem number?_eq_some_iff {t : Text} {n : Nat} :
    number? t = some n ↔ Spells (unmarked t) n := by
  rw [spells_iff, number?, Option.ite_none_right_eq_some, Option.some_inj]

/-- The digits of a register have no mark to be taken off. -/
theorem registerIndex?_eq_some_iff {t : Text} {n : Nat} :
    registerIndex? t = some n ↔ ∃ digits, t = 'V' :: digits ∧ Spells digits n := by
  constructor
  · intro h
    unfold registerIndex? at h
    split at h
    · rename_i digits
      obtain ⟨hmark, hnumber⟩ := Option.ite_none_right_eq_some.mp h
      exact ⟨digits, rfl, hmark ▸ number?_eq_some_iff.mp hnumber⟩
    · cases h
  · rintro ⟨digits, rfl, h⟩
    have hmark : unmarked digits = digits := unmarked_of_digits h.isHexDigit
    rw [registerIndex?, if_pos hmark, number?_eq_some_iff, hmark]
    exact h

/-! ## Readers -/

/-- The number that was found, if it is not above the bound. -/
def bounded (w bound : Nat) (high missing : StatementError) :
    Option Nat → Except StatementError (BitVec w)
  | some n => if n ≤ bound then .ok (BitVec.ofNat w n) else .error high
  | none   => .error missing

theorem register_eq (t : Text) :
    register t = bounded 8 0xF (.invalidRegister t) (.invalidRegister t) (registerIndex? t) := rfl

theorem value_eq (t : Text) :
    value t = bounded 8 0xFF (.invalidValue t) (.invalidValue t) (number? t) := rfl

theorem nibble_eq (t : Text) :
    nibble t = bounded 8 0xF (.invalidNibble t) (.invalidValue t) (number? t) := rfl

theorem address_eq (t : Text) :
    address t = bounded 16 0xFFF (.invalidAddress t) (.invalidAddress t) (number? t) := rfl

/-- The outcome is the number that is spelled, as long as it is not above the bound; else it
    is the error of what is above the bound, or of what spells no number. -/
structure ReadsUpTo {w : Nat} (bound : Nat) (spelled : Nat → Prop)
    (high missing : StatementError) (r : Except StatementError (BitVec w)) : Prop where
  ok_iff : ∀ v, r = .ok v ↔ spelled v.toNat ∧ v.toNat ≤ bound
  error_iff : ∀ e, r = .error e ↔
    (e = high ∧ ∃ n > bound, spelled n) ∨ (e = missing ∧ ¬ ∃ n, spelled n)

section Bounded

variable {w bound : Nat} {high missing : StatementError} {found : Option Nat}

theorem bounded_eq_ok_iff (hw : bound < 2 ^ w) {v : BitVec w} :
    bounded w bound high missing found = .ok v ↔ found = some v.toNat ∧ v.toNat ≤ bound := by
  constructor
  · exact fun h => read_bounded h hw
  · rintro ⟨rfl, hbound⟩
    rw [bounded, if_pos hbound, BitVec.ofNat_toNat, BitVec.setWidth_eq]

theorem bounded_eq_error_iff {e : StatementError} :
    bounded w bound high missing found = .error e ↔
      (e = high ∧ ∃ n > bound, found = some n) ∨ (e = missing ∧ found = none) := by
  cases found with
  | none => simp [bounded, eq_comm]
  | some n =>
      by_cases hn : n ≤ bound
      · simp [bounded, hn]
      · simp [bounded, hn, Nat.lt_of_not_le hn, eq_comm]

/-- What a reader finds decides its outcome. -/
theorem readsUpTo_bounded {spelled : Nat → Prop} (hw : bound < 2 ^ w)
    (hfound : ∀ n, found = some n ↔ spelled n) :
    ReadsUpTo bound spelled high missing (bounded w bound high missing found) where
  ok_iff := by
    intro v
    rw [bounded_eq_ok_iff hw, hfound]
  error_iff := by
    intro e
    have hmissing : found = none ↔ ¬ ∃ n, spelled n := by
      rw [Option.eq_none_iff_forall_ne_some, not_exists]
      exact forall_congr' fun n => not_congr (hfound n)
    simp only [bounded_eq_error_iff, hfound, hmissing]

end Bounded

/-! ## Shapes -/

/-- What looks like an address is one. -/
theorem exists_address_of_shape {t : Text} (h : shape t = .address) : ∃ a, address t = .ok a :=
  Statement.errorOf_eq_none_iff.mp (Statement.errorOf_address h)

/-- What is read as a register looks like one. -/
theorem shape_of_register {t : Text} {x : Byte} (h : register t = .ok x) :
    shape t = .register := by
  obtain ⟨hindex, -⟩ := (bounded_eq_ok_iff (by decide)).mp h
  obtain ⟨digits, rfl, hspells⟩ := registerIndex?_eq_some_iff.mp hindex
  obtain ⟨c, r, rfl⟩ := List.exists_cons_of_length_pos hspells.width.1
  exact if_pos (hspells.isHexDigit c List.mem_cons_self)

/-- **LITERALS ARE EXACT**: a token is a number if and only if without one mark `0X` in front
    it is one to eight hexadecimal digits, and it is the number that they make by place,
    which fits 32 bits.  As a byte, a nibble and an address it is read up to `0xFF`, `0xF`
    and `0xFFF`, and a register is read up to 15, from the letter `V` and digits without a
    mark.  All else is refused with an error that names the token: as no byte, no address
    and no register, and as no nibble if it is a number, but as no byte if it is none.  What
    looks like an address is always read as one, and what is read as a register always looks
    like one. -/
theorem literals_exact (t : Text) :
    let body := if "0X".toList.isPrefixOf t then t.drop 2 else t
    (∀ n, number? t = some n ↔ Spells body n) ∧
    (∀ n, Spells body n → n < 2 ^ 32) ∧
    ReadsUpTo 0xFF (Spells body) (.invalidValue t) (.invalidValue t) (value t) ∧
    ReadsUpTo 0xF (Spells body) (.invalidNibble t) (.invalidValue t) (nibble t) ∧
    ReadsUpTo 0xFFF (Spells body) (.invalidAddress t) (.invalidAddress t) (address t) ∧
    ReadsUpTo 15 (fun n => ∃ digits, t = 'V' :: digits ∧ Spells digits n)
      (.invalidRegister t) (.invalidRegister t) (register t) ∧
    (shape t = .address → ∃ a, address t = .ok a) ∧
    ∀ x, register t = .ok x → shape t = .register := by
  intro body
  have hnumber : ∀ n, number? t = some n ↔ Spells body n := by
    intro n
    rw [number?_eq_some_iff, unmarked_eq]
  refine ⟨hnumber, fun n h => h.lt, ?_, ?_, ?_, ?_, exists_address_of_shape,
    fun x => shape_of_register⟩
  · rw [value_eq]
    exact readsUpTo_bounded (by decide) hnumber
  · rw [nibble_eq]
    exact readsUpTo_bounded (by decide) hnumber
  · rw [address_eq]
    exact readsUpTo_bounded (by decide) hnumber
  · rw [register_eq]
    exact readsUpTo_bounded (by decide) fun n => registerIndex?_eq_some_iff

/-- An address with a mark, and a register written with as many digits as there can be. -/
theorem literals_exact_eight_digits :
    shape "0Xa0F".toList = .address ∧ (∃ a, address "0Xa0F".toList = .ok a) ∧
      register "V0000000f".toList = .ok 15 ∧ shape "V0000000f".toList = .register := by
  have haddress : shape "0Xa0F".toList = .address := by decide
  have hregister : register "V0000000f".toList = .ok 15 := by decide
  obtain ⟨-, -, -, -, -, -, hread, -⟩ := literals_exact "0Xa0F".toList
  obtain ⟨-, -, -, -, -, -, -, hlooks⟩ := literals_exact "V0000000f".toList
  exact ⟨haddress, hread haddress, hregister, hlooks 15 hregister⟩

end Token

end Chip8
