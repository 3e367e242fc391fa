import Chip8.Assembly.Encoder

/-! # Statements — a mnemonic and its operands as a word

    The shapes of the operands select the encoding of the statement; only then are the
    operands read.  A statement that fits no encoding is refused as a whole. -/

namespace Chip8

/-- An operand as it is looked at: trimmed and in upper case. -/
def Token.ofOperand (t : Text) : Text := Text.upper (Text.trim t)

/-- The word of a statement.  Errors name the mnemonic as it was written, in upper case,
    and those of an encoder by its own name. -/
def Statement.encode (mnemonic : Text) (operands : List Text) : Except StatementError Word :=
  let written := Text.upper (Text.trim mnemonic)
  let canonical := Mnemonic.canonical mnemonic
  match Mnemonic.ofName? canonical with
  | none   => .error (.unknownInstruction written)
  | some m =>
    let tokens := operands.map Token.ofOperand
    match Encoding.fitting tokens m.encodings with
    | none   => .error (.invalidOperands written tokens)
    | some e => e.val.encode canonical tokens e.property

end Chip8
