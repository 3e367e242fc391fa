import Chip8.Text.Blank
import Chip8.Text.UpperCase

/-! # Mnemonics — the names of the instructions

    Twenty names cover all instructions; one name serves every instruction that
    moves data, the operands tell them apart.  A dozen longer names are accepted
    beside them and mean the same. -/

namespace Chip8

/-- The name that begins a statement. -/
inductive Mnemonic where
  | add | and | call | cls | drw | jp | ld | or | ret | rnd | se | shl | shr | sknp | skp
  | sne | sub | subn | sys | xor
  deriving DecidableEq, Repr

namespace Mnemonic

/-- Every mnemonic, in the order of the names. -/
def all : List Mnemonic :=
  [.add, .and, .call, .cls, .drw, .jp, .ld, .or, .ret, .rnd, .se, .shl, .shr, .sknp, .skp,
   .sne, .sub, .subn, .sys, .xor]

/-- How the mnemonic is written. -/
def name : Mnemonic → Text
  | .add  => ['A', 'D', 'D']
  | .and  => ['A', 'N', 'D']
  | .call => ['C', 'A', 'L', 'L']
  | .cls  => ['C', 'L', 'S']
  | .drw  => ['D', 'R', 'W']
  | .jp   => ['J', 'P']
  | .ld   => ['L', 'D']
  | .or   => ['O', 'R']
  | .ret  => ['R', 'E', 'T']
  | .rnd  => ['R', 'N', 'D']
  | .se   => ['S', 'E']
  | .shl  => ['S', 'H', 'L']
  | .shr  => ['S', 'H', 'R']
  | .sknp => ['S', 'K', 'N', 'P']
  | .skp  => ['S', 'K', 'P']
  | .sne  => ['S', 'N', 'E']
  | .sub  => ['S', 'U', 'B']
  | .subn => ['S', 'U', 'B', 'N']
  | .sys  => ['S', 'Y', 'S']
  | .xor  => ['X', 'O', 'R']

/-- The mnemonic of a name. -/
def ofName? (t : Text) : Option Mnemonic := all.find? (fun m => m.name = t)

/-- The longer names. -/
def aliases : List (Text × Mnemonic) :=
  [("CLEAR".toList, .cls), ("RETURN".toList, .ret), ("JUMP".toList, .jp), ("JMP".toList, .jp),
   ("SKIP".toList, .se), ("SKIPN".toList, .sne), ("LOAD".toList, .ld),
   ("SHIFTR".toList, .shr), ("SHIFTL".toList, .shl), ("RAND".toList, .rnd),
   ("DRAW".toList, .drw), ("SKIPP".toList, .skp), ("SKIPNP".toList, .sknp)]

/-- A name as it is looked up: trimmed, in upper case, and the mnemonic's own
    name in place of a longer one. -/
def canonical (t : Text) : Text :=
  let u := Text.upper (Text.trim t)
  match aliases.lookup u with
  | some m => m.name
  | none   => u

theorem mem_all (m : Mnemonic) : m ∈ all := by cases m <;> decide

/-- Different mnemonics have different names. -/
theorem ofName?_name (m : Mnemonic) : ofName? m.name = some m := by cases m <;> decide

theorem name_of_ofName? {t : Text} {m : Mnemonic} (h : ofName? t = some m) : m.name = t := by
  have := List.find?_some h
  simpa using this

theorem ofName?_eq_some_iff {t : Text} {m : Mnemonic} : ofName? t = some m ↔ m.name = t := by
  constructor
  · exact name_of_ofName?
  · rintro rfl
    exact ofName?_name m

theorem ofName?_eq_none_iff {t : Text} : ofName? t = none ↔ ∀ m : Mnemonic, m.name ≠ t := by
  simp only [Option.eq_none_iff_forall_ne_some, ne_eq, ofName?_eq_some_iff]

end Mnemonic

end Chip8
