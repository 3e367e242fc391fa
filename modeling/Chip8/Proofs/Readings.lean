import Chip8.Assembly.Statement
import Chip8.Instruction.Opcode

/-! # Readings — a statement as an instruction

    The assembler makes words of statements and knows no instructions.  Here statements are
    read: the mnemonic and the shapes of the operands tell which instruction is meant, and
    the readers give it its operands.  So a statement means an instruction apart from the
    word that it assembles to. -/

namespace Chip8

namespace Statement

open Token

/-- A statement of one register. -/
def ofRegister (make : Byte → Instruction) (x : Text) : Except StatementError Instruction := do
  let x ← register x
  return make x

/-- A statement of two registers. -/
def ofRegisters (make : Byte → Byte → Instruction) (x y : Text) :
    Except StatementError Instruction := do
  let x ← register x
  let y ← register y
  return make x y

/-- A statement of a register and a byte. -/
def ofRegisterByte (make : Byte → Byte → Instruction) (x k : Text) :
    Except StatementError Instruction := do
  let x ← register x
  let k ← value k
  return make x k

/-- A statement of an address. -/
def ofAddress (make : Word → Instruction) (a : Text) : Except StatementError Instruction := do
  let a ← address a
  return make a

/-- A jump from an address plus a register, which can only be `V0`. -/
def ofJumpPlus (x a : Text) : Except StatementError Instruction := do
  let r ← register x
  if r ≠ 0 then throw (.invalidOperands (Mnemonic.name .jp) [x, a])
  let a ← address a
  return .jumpPlus a

/-- A draw: two registers and a row count. -/
def ofDraw (x y n : Text) : Except StatementError Instruction := do
  let x ← register x
  let y ← register y
  let n ← nibble n
  return .draw x y n

/-- The forms of the statements that move data. -/
def readLoad : List (Shape × Text) → Option (Except StatementError Instruction)
  | [(.register, x), (.byte, k)]     => some (ofRegisterByte .loadByte x k)
  | [(.register, x), (.register, y)] => some (ofRegisters (.arith .move) x y)
  | [(.index, _), (.address, a)]     => some (ofAddress .loadIndex a)
  | [(.register, x), (.delay, _)]    => some (ofRegister .loadDelay x)
  | [(.register, x), (.key, _)]      => some (ofRegister .loadKey x)
  | [(.delay, _), (.register, x)]    => some (ofRegister .setDelay x)
  | [(.sound, _), (.register, x)]    => some (ofRegister .setSound x)
  | [(.font, _), (.register, x)]     => some (ofRegister .loadGlyph x)
  | [(.decimal, _), (.register, x)]  => some (ofRegister .storeDecimal x)
  | [(.index, _), (.register, x)]    => some (ofRegister .storeRegisters x)
  | [(.register, x), (.index, _)]    => some (ofRegister .loadRegisters x)
  | _                                => none

/-- The form of a statement, if its operands have the shapes of one. -/
def read : Mnemonic → List (Shape × Text) → Option (Except StatementError Instruction)
  | .sys,  [(.address, a)]                   => some (ofAddress .routine a)
  | .cls,  []                                => some (.ok .clear)
  | .ret,  []                                => some (.ok .ret)
  | .jp,   [(.address, a)]                   => some (ofAddress .jump a)
  | .jp,   [(.register, x), (.address, a)]   => some (ofJumpPlus x a)
  | .call, [(.address, a)]                   => some (ofAddress .call a)
  | .se,   [(.register, x), (.byte, k)]      => some (ofRegisterByte (.skip <| .eqByte · ·) x k)
  | .se,   [(.register, x), (.register, y)]  => some (ofRegisters (.skip <| .eqReg · ·) x y)
  | .sne,  [(.register, x), (.byte, k)]      => some (ofRegisterByte (.skip <| .neByte · ·) x k)
  | .sne,  [(.register, x), (.register, y)]  => some (ofRegisters (.skip <| .neReg · ·) x y)
  | .ld,   operands                          => readLoad operands
  | .add,  [(.register, x), (.byte, k)]      => some (ofRegisterByte .addByte x k)
  | .add,  [(.register, x), (.register, y)]  => some (ofRegisters (.arith .add) x y)
  | .add,  [(.index, _), (.register, x)]     => some (ofRegister .addIndex x)
  | .or,   [(.register, x), (.register, y)]  => some (ofRegisters (.arith .or) x y)
  | .and,  [(.register, x), (.register, y)]  => some (ofRegisters (.arith .and) x y)
  | .xor,  [(.register, x), (.register, y)]  => some (ofRegisters (.arith .xor) x y)
  | .sub,  [(.register, x), (.register, y)]  => some (ofRegisters (.arith .sub) x y)
  | .subn, [(.register, x), (.register, y)]  => some (ofRegisters (.arith .subFrom) x y)
  | .shr,  [(.register, x)]                  => some (ofRegister (.shift .right) x)
  | .shl,  [(.register, x)]                  => some (ofRegister (.shift .left) x)
  | .rnd,  [(.register, x), (.byte, k)]      => some (ofRegisterByte .random x k)
  | .drw,  [(.register, x), (.register, y), (.byte, n)] => some (ofDraw x y n)
  | .skp,  [(.register, x)]                  => some (ofRegister (.skip <| .keyDown ·) x)
  | .sknp, [(.register, x)]                  => some (ofRegister (.skip <| .keyUp ·) x)
  | _,     _                                 => none

/-- The instruction of a statement.  Errors name the mnemonic as it was written,
    in upper case. -/
def instruction (mnemonic : Text) (operands : List Text) :
    Except StatementError Instruction :=
  let written := Text.upper (Text.trim mnemonic)
  match Mnemonic.ofName? (Mnemonic.canonical mnemonic) with
  | none   => .error (.unknownInstruction written)
  | some m =>
    let tokens := operands.map ofOperand
    match read m (tokens.map fun t => (shape t, t)) with
    | none        => .error (.invalidOperands written tokens)
    | some answer => answer

end Statement

end Chip8
