import Chip8.Assembly.Token
import Chip8.Mnemonic

/-! # Encoders — the table of statements, and the words that operands make

    A mnemonic has one or several encodings, which are tried in order.  An encoding says
    which shapes the operands have and which encoder makes the word of them: the family
    is the highest digit, the operands fill the fields behind it, and a suffix fills what
    they leave free.  The table is about words alone; which instructions they stand for is
    the machine's affair. -/

namespace Chip8

/-- How operands make a word. -/
inductive Encoder where
  /-- The word itself. -/
  | fixed (word : Word)
  /-- An address behind the family, the operand at `index`. -/
  | address (family : Byte) (index : Nat)
  /-- An address behind the family, with `V0` in front of it among the operands. -/
  | offsetAddress (family : Byte)
  | registerByte (family : Byte)
  /-- Two registers, and the suffix in the last digit. -/
  | twoRegister (family suffix : Byte)
  /-- A register, the operand at `index`, and the suffix in the low byte. -/
  | oneRegister (family suffix : Byte) (index : Nat)
  | twoRegisterNibble (family : Byte)
  deriving DecidableEq, Repr

namespace Encoder

/-- How many operands have to be there. -/
def arity : Encoder → Nat
  | fixed _               => 0
  | address _ index       => index + 1
  | offsetAddress _       => 2
  | registerByte _        => 2
  | twoRegister _ _       => 2
  | oneRegister _ _ index => index + 1
  | twoRegisterNibble _   => 3

/-- The family in the highest digit. -/
def leading (family : Byte) : Word := (family.setWidth 16 &&& 0xF) <<< 12

/-- The word that an encoder makes of operands.  They are read from left to right, and
    the first that does not fit is the error. -/
def encode (mnemonic : Text) (operands : List Text) :
    (e : Encoder) → e.arity ≤ operands.length → Except StatementError Word
  | fixed word, _ => return word
  | address family index, h => do
    let a ← Token.address (operands.get ⟨index, h⟩)
    return leading family ||| a
  | offsetAddress family, h => do
    let r ← Token.register (operands.get ⟨0, Nat.lt_of_succ_lt h⟩)
    if r ≠ 0 then throw (.invalidOperands mnemonic operands)
    let a ← Token.address (operands.get ⟨1, h⟩)
    return leading family ||| a
  | registerByte family, h => do
    let x ← Token.register (operands.get ⟨0, Nat.lt_of_succ_lt h⟩)
    let k ← Token.value (operands.get ⟨1, h⟩)
    return leading family ||| x.setWidth 16 <<< 8 ||| k.setWidth 16
  | twoRegister family suffix, h => do
    let x ← Token.register (operands.get ⟨0, Nat.lt_of_succ_lt h⟩)
    let y ← Token.register (operands.get ⟨1, h⟩)
    return leading family ||| x.setWidth 16 <<< 8 ||| y.setWidth 16 <<< 4 |||
      (suffix.setWidth 16 &&& 0xF)
  | oneRegister family suffix index, h => do
    let x ← Token.register (operands.get ⟨index, h⟩)
    return leading family ||| x.setWidth 16 <<< 8 ||| suffix.setWidth 16
  | twoRegisterNibble family, h => do
    let x ← Token.register (operands.get ⟨0, Nat.lt_of_succ_lt (Nat.lt_of_succ_lt h)⟩)
    let y ← Token.register (operands.get ⟨1, Nat.lt_of_succ_lt h⟩)
    let n ← Token.nibble (operands.get ⟨2, h⟩)
    return leading family ||| x.setWidth 16 <<< 8 ||| y.setWidth 16 <<< 4 ||| n.setWidth 16

end Encoder

/-- Shapes of operands, and the encoder for operands of these shapes. -/
structure Encoding where
  shapes : List Shape
  encoder : Encoder
  /-- There is an operand wherever the encoder reads one. -/
  covered : encoder.arity ≤ shapes.length

namespace Encoding

/-- A word without operands. -/
def fixed (word : Word) : Encoding := ⟨[], .fixed word, Nat.le_refl 0⟩

/-- An address alone. -/
def address (family : Byte) : Encoding := ⟨[.address], .address family 0, Nat.le_refl 1⟩

/-- A register and a byte. -/
def registerByte (family : Byte) : Encoding :=
  ⟨[.register, .byte], .registerByte family, Nat.le_refl 2⟩

/-- Two registers. -/
def twoRegister (family suffix : Byte) : Encoding :=
  ⟨[.register, .register], .twoRegister family suffix, Nat.le_refl 2⟩

/-- A register alone. -/
def oneRegister (family suffix : Byte) : Encoding :=
  ⟨[.register], .oneRegister family suffix 0, Nat.le_refl 1⟩

/-- A register beside a keyword, at `index` of the two. -/
def keyword (first second : Shape) (suffix : Byte) (index : Fin 2) : Encoding :=
  ⟨[first, second], .oneRegister 0xF suffix index.val, index.isLt⟩

/-- The word that an encoding makes of operands of its shapes. -/
def encode (e : Encoding) (mnemonic : Text) (operands : List Text)
    (h : e.shapes = operands.map Token.shape) : Except StatementError Word :=
  e.encoder.encode mnemonic operands
    (Nat.le_trans e.covered (Nat.le_of_eq ((congrArg List.length h).trans (List.length_map _))))

/-- The first of the encodings whose shapes the operands have. -/
def fitting (operands : List Text) :
    List Encoding → Option { e : Encoding // e.shapes = operands.map Token.shape }
  | []     => none
  | e :: r => if h : e.shapes = operands.map Token.shape then some ⟨e, h⟩ else fitting operands r

end Encoding

open Encoding in
/-- The encodings of a mnemonic, in the order in which they are tried. -/
def Mnemonic.encodings : Mnemonic → List Encoding
  | sys  => [address 0x0]
  | cls  => [fixed 0x00E0]
  | ret  => [fixed 0x00EE]
  | jp   => [address 0x1, ⟨[.register, .address], .offsetAddress 0xB, Nat.le_refl 2⟩]
  | call => [address 0x2]
  | se   => [registerByte 0x3, twoRegister 0x5 0x0]
  | sne  => [registerByte 0x4, twoRegister 0x9 0x0]
  | ld   =>
    [registerByte 0x6,
     twoRegister 0x8 0x0,
     ⟨[.index, .address], .address 0xA 1, Nat.le_refl 2⟩,
     keyword .register .delay 0x07 0,
     keyword .register .key 0x0A 0,
     keyword .delay .register 0x15 1,
     keyword .sound .register 0x18 1,
     keyword .font .register 0x29 1,
     keyword .decimal .register 0x33 1,
     keyword .index .register 0x55 1,
     keyword .register .index 0x65 0]
  | add  => [registerByte 0x7, twoRegister 0x8 0x4, keyword .index .register 0x1E 1]
  | or   => [twoRegister 0x8 0x1]
  | and  => [twoRegister 0x8 0x2]
  | xor  => [twoRegister 0x8 0x3]
  | sub  => [twoRegister 0x8 0x5]
  | shr  => [oneRegister 0x8 0x06]
  | subn => [twoRegister 0x8 0x7]
  | shl  => [oneRegister 0x8 0x0E]
  | rnd  => [registerByte 0xC]
  | drw  => [⟨[.register, .register, .byte], .twoRegisterNibble 0xD, Nat.le_refl 3⟩]
  | skp  => [oneRegister 0xE 0x9E]
  | sknp => [oneRegister 0xE 0xA1]

end Chip8
