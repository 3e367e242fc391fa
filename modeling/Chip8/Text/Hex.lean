import Chip8.Text

/-! # Hexadecimal — numbers as upper-case digits, and digits of either case read

    `hex w n` writes `n` with at least `w` digits and no more than it needs;
    `hexValue` reads digits by their place. -/

namespace Chip8.Text

/-- The upper-case digit of a number below 16. -/
def hexDigit (n : Nat) : Char :=
  if n < 10 then Char.ofNat (48 + n) else Char.ofNat (55 + n)

/-- The last `w` digits of a number. -/
def hexDigits : Nat → Nat → Text
  | 0,     _ => []
  | w + 1, n => hexDigits w (n / 16) ++ [hexDigit (n % 16)]

/-- The number in hexadecimal, filled up with zeros to at least `w` digits. -/
def hex (w n : Nat) : Text := hexDigits (max w (Nat.log2 n / 4 + 1)) n

/-- An ASCII digit or a letter `A` to `F` of either case. -/
def isHexDigit (c : Char) : Bool :=
  ('0' ≤ c && c ≤ '9') || ('A' ≤ c && c ≤ 'F') || ('a' ≤ c && c ≤ 'f')

/-- The value of a digit. -/
def digitValue (c : Char) : Nat :=
  if c ≤ '9' then c.toNat - 48 else if c ≤ 'F' then c.toNat - 55 else c.toNat - 87

/-- The number that digits stand for. -/
def hexValue (t : Text) : Nat := t.foldl (fun v c => 16 * v + digitValue c) 0

theorem length_hexDigits (w n : Nat) : (hexDigits w n).length = w := by
  induction w generalizing n with
  | zero => rfl
  | succ w ih => simp [hexDigits, ih]

theorem isHexDigit_hexDigit {n : Nat} (h : n < 16) : isHexDigit (hexDigit n) = true := by
  have all : ∀ k ∈ List.range 16, isHexDigit (hexDigit k) = true := by decide
  exact all n (List.mem_range.mpr h)

theorem digitValue_hexDigit {n : Nat} (h : n < 16) : digitValue (hexDigit n) = n := by
  have all : ∀ k ∈ List.range 16, digitValue (hexDigit k) = k := by decide
  exact all n (List.mem_range.mpr h)

/-- Every character of a number is the digit of something below 16. -/
theorem mem_hexDigits {w n : Nat} {c : Char} (h : c ∈ hexDigits w n) :
    ∃ d, d < 16 ∧ c = hexDigit d := by
  induction w generalizing n with
  | zero => cases h
  | succ w ih =>
      rcases List.mem_append.mp h with hfront | hlast
      · exact ih hfront
      · exact ⟨n % 16, Nat.mod_lt _ (by decide), List.mem_singleton.mp hlast⟩

theorem all_isHexDigit_hexDigits (w n : Nat) : (hexDigits w n).all isHexDigit = true := by
  refine List.all_eq_true.mpr fun c hc => ?_
  obtain ⟨d, hd, rfl⟩ := mem_hexDigits hc
  exact isHexDigit_hexDigit hd

theorem hexValue_append_digit (t : Text) (c : Char) :
    hexValue (t ++ [c]) = 16 * hexValue t + digitValue c := by
  simp [hexValue]

theorem toNat_of_isHexDigit {c : Char} (h : isHexDigit c = true) :
    (48 ≤ c.toNat ∧ c.toNat ≤ 57) ∨ (65 ≤ c.toNat ∧ c.toNat ≤ 70) ∨
      (97 ≤ c.toNat ∧ c.toNat ≤ 102) := by
  simp only [isHexDigit, Bool.or_eq_true, Bool.and_eq_true, decide_eq_true_eq, Char.le_def,
    UInt32.le_iff_toNat_le] at h
  exact or_assoc.mp h

theorem digitValue_lt {c : Char} (h : isHexDigit c = true) : digitValue c < 16 := by
  have hc := toNat_of_isHexDigit h
  have hcode : c.val.toNat = c.toNat := rfl
  have h9 : ('9').val.toNat = 57 := rfl
  have hF : ('F').val.toNat = 70 := rfl
  simp only [digitValue, Char.le_def, UInt32.le_iff_toNat_le, hcode, h9, hF]
  split
  · omega
  · split <;> omega

end Chip8.Text
