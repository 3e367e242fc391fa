import Chip8.Instruction

/-! # Opcodes — the words that stand for instructions

    A word falls into a leading digit, which tells the family, and operand
    fields: `x` and `y` select registers, `n` is a digit, `kk` a byte and `nnn`
    an address.  `Instruction.encode` writes the fields, reducing each operand to
    the width of its field; `Instruction.decode` reads them and refuses the words
    that stand for nothing. -/

namespace Chip8

/-! ## Fields of a word -/

namespace Opcode

/-- The leading digit. -/
def family (w : Word) : Nat := w.toNat / 4096

/-- The second digit, a register. -/
def x (w : Word) : Byte := BitVec.ofNat 8 (w.toNat / 256 % 16)

/-- The third digit, a register. -/
def y (w : Word) : Byte := BitVec.ofNat 8 (w.toNat / 16 % 16)

/-- The last digit. -/
def n (w : Word) : Byte := BitVec.ofNat 8 (w.toNat % 16)

/-- The low byte, an immediate value. -/
def kk (w : Word) : Byte := lowByte w

/-- The last three digits, an address. -/
def nnn (w : Word) : Word := wrap w

/-- The word of a family that carries an address. -/
def ofAddress (family : Nat) (a : Word) : Word :=
  BitVec.ofNat 16 (family * 4096 + a.toNat % 4096)

/-- The word of a family that carries a register and a byte. -/
def ofByte (family : Nat) (x value : Byte) : Word :=
  BitVec.ofNat 16 (family * 4096 + x.toNat % 16 * 256 + value.toNat)

/-- The word of a family that carries two registers and a digit. -/
def ofDigits (family : Nat) (x y n : Byte) : Word :=
  BitVec.ofNat 16 (family * 4096 + x.toNat % 16 * 256 + y.toNat % 16 * 16 + n.toNat % 16)

end Opcode

/-! ## Writing -/

/-- The last digit of an arithmetic word. -/
def ArithOp.digit : ArithOp → Byte
  | .move    => 0x0
  | .or      => 0x1
  | .and     => 0x2
  | .xor     => 0x3
  | .add     => 0x4
  | .sub     => 0x5
  | .subFrom => 0x7

/-- The last digit of a shift word. -/
def Direction.digit : Direction → Byte
  | .right => 0x6
  | .left  => 0xE

open Opcode in
/-- The word of a skip. -/
def Test.encode : Test → Word
  | .eqByte x k => ofByte 0x3 x k
  | .neByte x k => ofByte 0x4 x k
  | .eqReg x y  => ofDigits 0x5 x y 0
  | .neReg x y  => ofDigits 0x9 x y 0
  | .keyDown x  => ofByte 0xE x 0x9E
  | .keyUp x    => ofByte 0xE x 0xA1

open Opcode in
/-- The word that stands for an instruction. -/
def Instruction.encode : Instruction → Word
  | .routine a         => ofAddress 0x0 a
  | .clear             => 0x00E0
  | .ret               => 0x00EE
  | .jump a            => ofAddress 0x1 a
  | .call a            => ofAddress 0x2 a
  | .skip t            => t.encode
  | .loadByte x k      => ofByte 0x6 x k
  | .addByte x k       => ofByte 0x7 x k
  | .arith op x y      => ofDigits 0x8 x y op.digit
  | .shift d x         => ofDigits 0x8 x 0 d.digit
  | .loadIndex a       => ofAddress 0xA a
  | .jumpPlus a        => ofAddress 0xB a
  | .random x k        => ofByte 0xC x k
  | .draw x y n        => ofDigits 0xD x y n
  | .loadDelay x       => ofByte 0xF x 0x07
  | .loadKey x         => ofByte 0xF x 0x0A
  | .setDelay x        => ofByte 0xF x 0x15
  | .setSound x        => ofByte 0xF x 0x18
  | .addIndex x        => ofByte 0xF x 0x1E
  | .loadGlyph x       => ofByte 0xF x 0x29
  | .storeDecimal x    => ofByte 0xF x 0x33
  | .storeRegisters x  => ofByte 0xF x 0x55
  | .loadRegisters x   => ofByte 0xF x 0x65

/-! ## Reading -/

open Opcode in
/-- Family 8: arithmetic between registers, told apart by the last digit. -/
def Instruction.decodeArith (w : Word) : Option Instruction :=
  match (n w).toNat with
  | 0x0 => some (.arith .move (x w) (y w))
  | 0x1 => some (.arith .or (x w) (y w))
  | 0x2 => some (.arith .and (x w) (y w))
  | 0x3 => some (.arith .xor (x w) (y w))
  | 0x4 => some (.arith .add (x w) (y w))
  | 0x5 => some (.arith .sub (x w) (y w))
  | 0x6 => some (.shift .right (x w))
  | 0x7 => some (.arith .subFrom (x w) (y w))
  | 0xE => some (.shift .left (x w))
  | _   => none

open Opcode in
/-- Family F: timers, keys and transfers, told apart by the low byte. -/
def Instruction.decodeSingle (w : Word) : Option Instruction :=
  match (kk w).toNat with
  | 0x07 => some (.loadDelay (x w))
  | 0x0A => some (.loadKey (x w))
  | 0x15 => some (.setDelay (x w))
  | 0x18 => some (.setSound (x w))
  | 0x1E => some (.addIndex (x w))
  | 0x29 => some (.loadGlyph (x w))
  | 0x33 => some (.storeDecimal (x w))
  | 0x55 => some (.storeRegisters (x w))
  | 0x65 => some (.loadRegisters (x w))
  | _    => none

open Opcode in
/-- The instruction that a word stands for, if it stands for one. -/
def Instruction.decode (w : Word) : Option Instruction :=
  match family w with
  | 0x0 => some (if w = 0x00E0 then .clear else if w = 0x00EE then .ret else .routine (nnn w))
  | 0x1 => some (.jump (nnn w))
  | 0x2 => some (.call (nnn w))
  | 0x3 => some (.skip (.eqByte (x w) (kk w)))
  | 0x4 => some (.skip (.neByte (x w) (kk w)))
  | 0x5 => if n w = 0 then some (.skip (.eqReg (x w) (y w))) else none
  | 0x6 => some (.loadByte (x w) (kk w))
  | 0x7 => some (.addByte (x w) (kk w))
  | 0x8 => decodeArith w
  | 0x9 => if n w = 0 then some (.skip (.neReg (x w) (y w))) else none
  | 0xA => some (.loadIndex (nnn w))
  | 0xB => some (.jumpPlus (nnn w))
  | 0xC => some (.random (x w) (kk w))
  | 0xD => some (.draw (x w) (y w) (n w))
  | 0xE =>
    match (kk w).toNat with
    | 0x9E => some (.skip (.keyDown (x w)))
    | 0xA1 => some (.skip (.keyUp (x w)))
    | _    => none
  | _   => decodeSingle w

end Chip8
