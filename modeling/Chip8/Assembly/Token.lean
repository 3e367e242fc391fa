import Chip8.Assembly.Error
import Chip8.Text.Hex
import Chip8.Word

/-! # Tokens — operands as the source spells them

    A token is a trimmed operand in upper case.  Its shape decides which
    statements it can stand in, before its value is read: a register, one of the
    keywords, an address if it has exactly three hexadecimal digits, and a byte
    otherwise, well-formed or not.  The readers then take the number and refuse
    what does not fit its field. -/

namespace Chip8

/-- What a token looks like. -/
inductive Shape where
  | register | byte | address | index | delay | sound | key | decimal | font
  deriving DecidableEq, Repr

namespace Token

/-- The token without one leading `0X`. -/
def unmarked : Text → Text
  | '0' :: 'X' :: r => r
  | t               => t

/-- The shape of a token that is neither a register nor a keyword. -/
def numberShape (t : Text) : Shape :=
  if (unmarked t).length = 3 ∧ (unmarked t).all Text.isHexDigit then .address else .byte

/-- The keywords. -/
def keywords : List (Text × Shape) :=
  [("I".toList, .index), ("DT".toList, .delay), ("ST".toList, .sound), ("K".toList, .key),
   ("KEY".toList, .key), ("BCD".toList, .decimal), ("FONT".toList, .font)]

/-- The shape of a token that is not a register. -/
def otherShape (t : Text) : Shape := (keywords.lookup t).getD (numberShape t)

/-- The shape of a token. -/
def shape : Text → Shape
  | 'V' :: c :: r => if Text.isHexDigit c then .register else otherShape ('V' :: c :: r)
  | t             => otherShape t

theorem mem_keywords {t : Text} {s : Shape} (h : keywords.lookup t = some s) :
    (t, s) ∈ keywords := by
  obtain ⟨front, back, hsplit, -⟩ := List.lookup_eq_some_iff.mp h
  rw [hsplit]
  exact List.mem_append_cons_self

/-- What no keyword is keeps a token from being one. -/
theorem lookup_eq_none {p : Text → Prop} (hp : ∀ k ∈ keywords, ¬ p k.1) {t : Text} (ht : p t) :
    keywords.lookup t = none := by
  cases h : keywords.lookup t with
  | none => rfl
  | some s => exact absurd ht (hp _ (mem_keywords h))

/-- A token is a register, or looks like what no register is. -/
theorem shape_eq_or (t : Text) : shape t = .register ∨ shape t = otherShape t := by
  unfold shape
  split
  · split
    · exact Or.inl rfl
    · exact Or.inr rfl
  · exact Or.inr rfl

/-- An address has exactly three digits. -/
theorem digits_of_shape {t : Text} (h : shape t = .address) :
    (unmarked t).length = 3 ∧ ∀ c ∈ unmarked t, Text.isHexDigit c = true := by
  have hother : otherShape t = .address := by
    rcases shape_eq_or t with hregister | hother
    · rw [hregister] at h
      cases h
    · rw [← hother, h]
  -- no keyword looks like an address
  have hword : keywords.lookup t = none := by
    cases hl : keywords.lookup t with
    | none => rfl
    | some s =>
      rw [otherShape, hl, Option.getD_some] at hother
      have all : ∀ k ∈ keywords, k.2 ≠ .address := by decide
      exact absurd hother (all _ (mem_keywords hl))
  rw [otherShape, hword, Option.getD_none, numberShape] at hother
  split at hother
  · rename_i hdigits
    exact ⟨hdigits.1, List.all_eq_true.mp hdigits.2⟩
  · cases hother

/-- The number that a token spells: up to eight digits, with or without the mark. -/
def number? (t : Text) : Option Nat :=
  let digits := unmarked t
  if digits ≠ [] ∧ digits.length ≤ 8 ∧ digits.all Text.isHexDigit then
    some (Text.hexValue digits)
  else none

/-- The register index that follows the letter `V`, which takes no mark. -/
def registerIndex? : Text → Option Nat
  | 'V' :: r => if unmarked r = r then number? r else none
  | _        => none

/-- The register that a token names. -/
def register (t : Text) : Except StatementError Byte :=
  match registerIndex? t with
  | some n => if n ≤ 0xF then .ok (BitVec.ofNat 8 n) else .error (.invalidRegister t)
  | none   => .error (.invalidRegister t)

/-- The byte that a token spells. -/
def value (t : Text) : Except StatementError Byte :=
  match number? t with
  | some n => if n ≤ 0xFF then .ok (BitVec.ofNat 8 n) else .error (.invalidValue t)
  | none   => .error (.invalidValue t)

/-- The single digit that a token spells. -/
def nibble (t : Text) : Except StatementError Byte :=
  match number? t with
  | some n => if n ≤ 0xF then .ok (BitVec.ofNat 8 n) else .error (.invalidNibble t)
  | none   => .error (.invalidValue t)

/-- The 12-bit address that a token spells. -/
def address (t : Text) : Except StatementError Word :=
  match number? t with
  | some n => if n ≤ 0xFFF then .ok (BitVec.ofNat 16 n) else .error (.invalidAddress t)
  | none   => .error (.invalidAddress t)

end Token

end Chip8
