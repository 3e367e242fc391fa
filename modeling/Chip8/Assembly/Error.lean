import Chip8.Text.Quoted

/-! # Assembly errors — what can be wrong with a statement

    An error is a cause: the text that was refused and what it was refused as.
    `SourceError` adds the line on which the statement stands. -/

namespace Chip8

/-- Why a statement cannot be assembled. -/
inductive StatementError where
  | unknownInstruction (mnemonic : Text)
  | invalidOperands (mnemonic : Text) (operands : List Text)
  | invalidRegister (token : Text)
  | invalidAddress (token : Text)
  | invalidValue (token : Text)
  | invalidNibble (token : Text)
  deriving DecidableEq, Repr

/-- The first statement of a source that cannot be assembled; lines count from 1. -/
structure SourceError where
  line : Nat
  cause : StatementError
  deriving DecidableEq, Repr

/-- A text as a string in quotes. -/
def quotedString (t : Text) : String := String.ofList (Text.quoted t)

/-- The message of a statement error. -/
def StatementError.message : StatementError → String
  | .unknownInstruction m => "unknown instruction " ++ quotedString m
  | .invalidOperands m ts =>
    "invalid operands for " ++ quotedString m ++ ": " ++ String.ofList (Text.quotedList ts)
  | .invalidRegister t    => "invalid register " ++ quotedString t
  | .invalidAddress t     => "invalid address " ++ quotedString t
  | .invalidValue t       => "invalid value " ++ quotedString t
  | .invalidNibble t      => "invalid nibble " ++ quotedString t

/-- The message of a source error. -/
def SourceError.message (e : SourceError) : String :=
  e.cause.message ++ " on line " ++ toString e.line

end Chip8
