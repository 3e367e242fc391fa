import Chip8.Text
import Chip8.Text.Quoted.Table

/-! # Quoted text — how messages show what the user wrote

    A quotation stands between double quotes.  The quote and the backslash are
    escaped, as are the common controls; a character without a picture of its own
    is spelled by its number, and all else stands for itself. -/

namespace Chip8.Text

/-- A number in lower-case hexadecimal, without leading zeros. -/
def codePoint (n : Nat) : Text := Nat.toDigits 16 n

/-- A character as it stands in a quotation. -/
def escape (c : Char) : Text :=
  match c with
  | '\x00' => ['\\', '0']
  | '\t'   => ['\\', 't']
  | '\n'   => ['\\', 'n']
  | '\r'   => ['\\', 'r']
  | '"'    => ['\\', '"']
  | '\\'   => ['\\', '\\']
  | c      => if isHidden c then ['\\', 'u', '\x7b'] ++ codePoint c.toNat ++ ['\x7d'] else [c]

/-- The text as a quotation. -/
def quoted (t : Text) : Text := '"' :: t.flatMap escape ++ ['"']

/-- A list of texts as quotations between brackets. -/
def quotedList (ts : List Text) : Text :=
  '[' :: join [',', ' '] (ts.map quoted) ++ [']']

example : quoted ['a', '"', '\t', '\u0301'] =
    ['"', 'a', '\\', '"', '\\', 't', '\\', 'u', '\x7b', '3', '0', '1', '\x7d', '"'] := by
  decide +kernel

example : quoted ['\uff8a', '\uff9f'] = ['"', '\uff8a', '\uff9f', '"'] := by
  decide +kernel

end Chip8.Text
