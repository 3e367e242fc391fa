import Chip8.Text
import Chip8.Word

/-! # Screen — 64 by 32 pixels, drawn on by exclusive or

    A row is eight bytes, the leftmost pixel in the highest bit.  A sprite row is
    one byte; where it does not fall on a byte boundary it is split over two
    neighbouring columns, and both screen edges lead around to the other side.
    Drawing reports whether a lit pixel went dark. -/

namespace Chip8

/-- The picture, byte by byte, row after row. -/
structure Screen where
  cells : Vector Byte 256
  deriving DecidableEq

namespace Screen

/-- The dark screen. -/
def blank : Screen := ⟨Vector.replicate 256 0⟩

/-- The byte that shows a row at a column of eight pixels; both go around. -/
def place (row column : Nat) : Fin 256 := ⟨row % 32 * 8 + column % 8, by omega⟩

/-- Inverts the pixels of a byte whose bits are set, and tells whether one of them
    was lit. -/
def flip (s : Screen) (i : Fin 256) (bits : Byte) : Screen × Bool :=
  (⟨s.cells.set i.val (s.cells[i] ^^^ bits) i.isLt⟩, s.cells[i] &&& bits != 0)

/-- Draws one sprite row with its left end at pixel `x` of row `y`. -/
def drawRow (s : Screen) (x y : Nat) (bits : Byte) : Screen × Bool :=
  let (s, hit) := s.flip (place y (x / 8)) (bits >>> (x % 8))
  if x % 8 = 0 then (s, hit)
  else
    let (s, hit') := s.flip (place y (x / 8 + 1)) (bits <<< (8 - x % 8))
    (s, hit || hit')

/-- Draws sprite rows downwards from row `y`. -/
def drawRows (s : Screen) (x : Nat) : Nat → List Byte → Screen × Bool
  | _, []        => (s, false)
  | y, bits :: r =>
    let (s, hit) := s.drawRow x y bits
    let (s, hit') := drawRows s x (y + 1) r
    (s, hit || hit')

/-- Draws a sprite with its top left pixel at column `x`, row `y`, and tells
    whether a lit pixel went dark. -/
def draw (s : Screen) (sprite : List Byte) (x y : Byte) : Screen × Bool :=
  s.drawRows x.toNat y.toNat sprite

/-- Whether a pixel is lit; the coordinates go around. -/
def pixel (s : Screen) (x y : Nat) : Bool :=
  s.cells[place y (x / 8)].getMsbD (x % 8)

/-- Whether no pixel is lit. -/
def isBlank (s : Screen) : Bool := s.cells.all (· == 0)

/-! ## Pictures -/

/-- One row of the picture, `@` for a lit pixel. -/
def rowText (s : Screen) (y : Nat) : Text :=
  (List.range 64).map fun x => if s.pixel x y then '@' else ' '

/-- The picture, a line for each row. -/
def text (s : Screen) : Text := Text.join ['\n'] ((List.range 32).map s.rowText)

/-- The picture with its name around it. -/
def debugText (s : Screen) : Text := "Frame(\n".toList ++ s.text ++ [')']

end Screen

end Chip8
