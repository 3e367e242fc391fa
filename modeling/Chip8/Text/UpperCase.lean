import Chip8.Text
import Chip8.Text.UpperCase.Table

/-! # Upper case — the full mapping, one character at a time

    Mnemonics and operands may be written in either case, and the mapping is the
    full one of the Unicode standard: a character may become several, as the
    German sharp s does.  It does not look at the neighbours, so upper-casing a
    text is upper-casing its characters in turn. -/

namespace Chip8.Text

/-- The upper case of a character beyond ASCII. -/
def upperBeyondAscii (c : Char) : Text :=
  match caseExpansions.lookup c.toNat with
  | some images => images.map Char.ofNat
  | none =>
    match caseRuns.find? (CaseRun.holds · c.toNat) with
    | some run => [Char.ofNat (run.image c.toNat)]
    | none     => [c]

/-- The upper case of a character. -/
def upperChar (c : Char) : Text :=
  if c.toNat < 0x80 then [c.toUpper] else upperBeyondAscii c

/-- The upper case of a text. -/
def upper (t : Text) : Text := t.flatMap upperChar

@[simp] theorem upper_nil : upper [] = [] := rfl

@[simp] theorem upper_cons (c : Char) (t : Text) : upper (c :: t) = upperChar c ++ upper t := rfl

@[simp] theorem upper_append (s t : Text) : upper (s ++ t) = upper s ++ upper t := by
  simp [upper]

end Chip8.Text
