import Chip8.Instruction
import Chip8.Mnemonic
import Chip8.Text.Hex

/-! # Written instructions — a mnemonic and its operands

    An instruction is written as its mnemonic, a space, and its operands between
    commas.  Numbers are hexadecimal with `0X` in front: three digits for an
    address, two for a byte, one for a row count. -/

namespace Chip8

/-- What can stand after a mnemonic. -/
inductive Operand where
  | reg (x : Byte)
  | byte (value : Byte)
  | digit (value : Byte)
  | addr (target : Word)
  /-- The address register. -/
  | index
  | delay
  | sound
  | key
  | font
  | decimal
  deriving DecidableEq, Repr

/-- A number with its mark in front. -/
def Operand.number (width n : Nat) : Text := '0' :: 'X' :: Text.hex width n

/-- How an operand is written. -/
def Operand.text : Operand → Text
  | .reg x   => 'V' :: Text.hex 1 x.toNat
  | .byte k  => number 2 k.toNat
  | .digit n => number 1 n.toNat
  | .addr a  => number 3 a.toNat
  | .index   => ['I']
  | .delay   => ['D', 'T']
  | .sound   => ['S', 'T']
  | .key     => ['K', 'E', 'Y']
  | .font    => ['F', 'O', 'N', 'T']
  | .decimal => ['B', 'C', 'D']

/-- A mnemonic with its operands as one text. -/
def statementText (m : Mnemonic) : List Operand → Text
  | []  => m.name
  | ops => m.name ++ ' ' :: Text.join [',', ' '] (ops.map Operand.text)

/-- The mnemonic of an arithmetic instruction. -/
def ArithOp.mnemonic : ArithOp → Mnemonic
  | .move    => .ld
  | .or      => .or
  | .and     => .and
  | .xor     => .xor
  | .add     => .add
  | .sub     => .sub
  | .subFrom => .subn

/-- The mnemonic of a skip. -/
def Test.mnemonic : Test → Mnemonic
  | .eqByte .. => .se
  | .neByte .. => .sne
  | .eqReg ..  => .se
  | .neReg ..  => .sne
  | .keyDown _ => .skp
  | .keyUp _   => .sknp

/-- The operands of a skip. -/
def Test.operands : Test → List Operand
  | .eqByte x k | .neByte x k => [.reg x, .byte k]
  | .eqReg x y  | .neReg x y  => [.reg x, .reg y]
  | .keyDown x  | .keyUp x    => [.reg x]

namespace Instruction

/-- The mnemonic of an instruction. -/
def mnemonic : Instruction → Mnemonic
  | .routine _        => .sys
  | .clear            => .cls
  | .ret              => .ret
  | .jump _           => .jp
  | .call _           => .call
  | .jumpPlus _       => .jp
  | .skip t           => t.mnemonic
  | .loadByte ..      => .ld
  | .addByte ..       => .add
  | .arith op ..      => op.mnemonic
  | .shift .right _   => .shr
  | .shift .left _    => .shl
  | .loadIndex _      => .ld
  | .addIndex _       => .add
  | .loadGlyph _      => .ld
  | .random ..        => .rnd
  | .draw ..          => .drw
  | .loadDelay _      => .ld
  | .loadKey _        => .ld
  | .setDelay _       => .ld
  | .setSound _       => .ld
  | .storeDecimal _   => .ld
  | .storeRegisters _ => .ld
  | .loadRegisters _  => .ld

/-- The operands of an instruction, as they are written. -/
def operands : Instruction → List Operand
  | .routine a        => [.addr a]
  | .clear            => []
  | .ret              => []
  | .jump a           => [.addr a]
  | .call a           => [.addr a]
  | .jumpPlus a       => [.reg 0, .addr a]
  | .skip t           => t.operands
  | .loadByte x k     => [.reg x, .byte k]
  | .addByte x k      => [.reg x, .byte k]
  | .arith _ x y      => [.reg x, .reg y]
  | .shift _ x        => [.reg x]
  | .loadIndex a      => [.index, .addr a]
  | .addIndex x       => [.index, .reg x]
  | .loadGlyph x      => [.font, .reg x]
  | .random x k       => [.reg x, .byte k]
  | .draw x y n       => [.reg x, .reg y, .digit n]
  | .loadDelay x      => [.reg x, .delay]
  | .loadKey x        => [.reg x, .key]
  | .setDelay x       => [.delay, .reg x]
  | .setSound x       => [.sound, .reg x]
  | .storeDecimal x   => [.decimal, .reg x]
  | .storeRegisters x => [.index, .reg x]
  | .loadRegisters x  => [.reg x, .index]

/-- How an instruction is written. -/
def text (i : Instruction) : Text := statementText i.mnemonic i.operands

example : text (.draw 0xA 1 5) = "DRW VA, V1, 0X5".toList := by decide

end Instruction

end Chip8
