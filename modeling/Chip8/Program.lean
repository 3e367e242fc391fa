import Chip8.Assembly.Source
import Chip8.Listing

/-! # Programs — instructions in a row

    A program is written one instruction to a line, and loaded as the words of its
    instructions one after the other.  A program image is read two bytes at a
    time. -/

namespace Chip8

/-- Instructions in the order in which they are loaded. -/
abbrev Program := List Instruction

namespace Program

/-- The program with one instruction on each line. -/
def source (p : Program) : Text := Text.join ['\n'] (p.map Instruction.text)

/-- The bytes of an instruction, as they are loaded. -/
def bytes (i : Instruction) : List Byte := [highByte i.encode, lowByte i.encode]

/-- The program image: the bytes of the instructions in a row. -/
def image (p : Program) : List Byte := p.flatMap bytes

@[simp] theorem image_nil : image [] = [] := rfl

@[simp] theorem image_cons (i : Instruction) (p : Program) :
    image (i :: p) = highByte i.encode :: lowByte i.encode :: image p := rfl

theorem image_append (p q : Program) : image (p ++ q) = image p ++ image q :=
  List.flatMap_append

theorem length_image (p : Program) : (image p).length = 2 * p.length := by
  induction p with
  | nil => rfl
  | cons i p ih =>
      rw [image_cons, List.length_cons, List.length_cons, List.length_cons, ih]
      omega

end Program

/-- The words of a program image; a last byte without a partner is none. -/
def Listing.words : List Byte → List Word
  | hi :: lo :: r => bigEndian hi lo :: words r
  | _             => []

theorem Listing.words_image (p : Program) : words p.image = p.map Instruction.encode := by
  induction p with
  | nil => rfl
  | cons i p ih =>
      rw [Program.image_cons, words, bigEndian_highByte_lowByte, ih, List.map_cons]

end Chip8
