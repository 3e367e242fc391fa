import Chip8.Instruction.Opcode
import Chip8.Instruction.Written

/-! # Listings — a program image as lines of bytes and instructions

    Every two bytes make a line: where they are loaded, the bytes themselves and
    the instruction they stand for.  Words that stand for nothing, and a last
    byte without a partner, are listed with question marks, so no byte is lost. -/

namespace Chip8

/-- Where programs are loaded. -/
def programStart : Word := 0x200

namespace Listing

/-- The address column. -/
def addressColumn (a : Word) : Text := Text.hex 3 a.toNat ++ [':', ' ']

/-- The instruction column. -/
def instructionColumn (w : Word) : Text :=
  match Instruction.decode w with
  | some i => i.text
  | none   => ['?', '?', '?']

/-- The line of a word. -/
def wordLine (a : Word) (hi lo : Byte) : Text :=
  addressColumn a ++ Text.hex 2 hi.toNat ++ ' ' :: Text.hex 2 lo.toNat ++ [' ', ' '] ++
    instructionColumn (bigEndian hi lo)

/-- The line of a byte without a partner. -/
def byteLine (a : Word) (b : Byte) : Text :=
  addressColumn a ++ Text.hex 2 b.toNat ++ [' ', ' ', ' ', ' ', ' ', '?', '?', '?']

/-- The lines of an image that begins at `a`; addresses go around after the last
    16-bit one. -/
def linesFrom : Word → List Byte → List Text
  | _, []           => []
  | a, [b]          => [byteLine a b]
  | a, hi :: lo :: r => wordLine a hi lo :: linesFrom (a + 2) r

/-- The listing of a program image. -/
def lines (image : List Byte) : List Text := linesFrom programStart image

/-- There is a line for every two bytes and one for a byte left over. -/
theorem length_linesFrom (a : Word) (image : List Byte) :
    (linesFrom a image).length = (image.length + 1) / 2 := by
  induction a, image using linesFrom.induct with
  | case1 a => rfl
  | case2 a b => rw [linesFrom, List.length_singleton, List.length_singleton]
  | case3 a hi lo r ih =>
      rw [linesFrom, List.length_cons, ih, List.length_cons, List.length_cons]
      omega

/-- From line `k` on, a listing is that of the bytes from byte `2 * k` on. -/
theorem drop_linesFrom (a : Word) (image : List Byte) (k : Nat) :
    (linesFrom a image).drop k =
      linesFrom (a + BitVec.ofNat 16 (2 * k)) (image.drop (2 * k)) := by
  induction a, image using linesFrom.induct generalizing k with
  | case1 a => simp [linesFrom]
  | case2 a b => cases k <;> simp [linesFrom, Nat.mul_succ]
  | case3 a hi lo r ih =>
      cases k with
      | zero => simp
      | succ k =>
          have haddress : a + 2 + BitVec.ofNat 16 (2 * k) = a + BitVec.ofNat 16 (2 * (k + 1)) := by
            rw [Nat.mul_succ, Nat.add_comm, BitVec.ofNat_add, BitVec.add_assoc]
            rfl
          rw [linesFrom, List.drop_succ_cons, ih, haddress]
          rfl

/-- So line `k` is the first line of these bytes. -/
theorem getElem?_linesFrom_eq_head? (a : Word) (image : List Byte) (k : Nat) :
    (linesFrom a image)[k]? =
      (linesFrom (a + BitVec.ofNat 16 (2 * k)) (image.drop (2 * k))).head? := by
  rw [← drop_linesFrom, List.head?_drop]

end Listing

end Chip8
