import Chip8.Assembly.Error
import Chip8.Machine.Fault

/-! # Reports — failures as records, for the error stream

    A failing command writes one line: the cause by its name, with its fields by
    name between braces, or a single field between parentheses. -/

namespace Chip8

/-- What can go wrong with a file. -/
inductive FileError where
  | notFound
  | isDirectory
  | notDirectory
  | nameTooLong
  /-- The contents are no UTF-8 text. -/
  | notText
  /-- Another failure, in the words of the system. -/
  | other (message : String)
  deriving DecidableEq, Repr

namespace Report

/-- A name with named fields. -/
def record (name : String) (fields : List (String × String)) : String :=
  name ++ " \x7b " ++ ", ".intercalate (fields.map fun (k, v) => k ++ ": " ++ v) ++ " \x7d"

/-- A name with one field. -/
def single (name value : String) : String := name ++ "(" ++ value ++ ")"

/-- A text without special characters, in quotes. -/
def plain (s : String) : String := "\"" ++ s ++ "\""

/-- A word as a field. -/
def word (w : Word) : String := toString w.toNat

/-- The record of a statement error. -/
def ofStatementError : StatementError → String
  | .unknownInstruction m  => record "UnknownInstruction" [("mnemonic", quotedString m)]
  | .invalidOperands m ts  =>
    record "InvalidOperands"
      [("mnemonic", quotedString m), ("operands", String.ofList (Text.quotedList ts))]
  | .invalidRegister t     => single "InvalidRegister" (quotedString t)
  | .invalidAddress t      => single "InvalidAddress" (quotedString t)
  | .invalidValue t        => single "InvalidValue" (quotedString t)
  | .invalidNibble t       => single "InvalidNibble" (quotedString t)

/-- The record of a source error. -/
def ofSourceError (e : SourceError) : String :=
  record "Line" [("line", toString e.line), ("source", ofStatementError e.cause)]

/-- The record of a fault. -/
def ofFault : Fault → String
  | .programTooLarge size max =>
    record "ProgramTooLarge" [("size", toString size), ("max", toString max)]
  | .unknownOpcode w a => record "UnknownOpcode" [("opcode", word w), ("address", word a)]
  | .unsupportedInstruction w a =>
    record "UnsupportedInstruction" [("opcode", word w), ("address", word a)]
  | .stackOverflow a => record "StackOverflow" [("address", word a)]
  | .stackUnderflow a => record "StackUnderflow" [("address", word a)]
  | .misalignedProgramCounter a => record "MisalignedProgramCounter" [("address", word a)]
  | .inputClosed a => record "InputClosed" [("address", word a)]

/-- The record of a failure that the system reports by number. -/
def system (code : Nat) (kind message : String) : String :=
  record "Os" [("code", toString code), ("kind", kind), ("message", plain message)]

/-- The record of a file error. -/
def ofFileError : FileError → String
  | .notFound      => system 2 "NotFound" "No such file or directory"
  | .isDirectory   => system 21 "IsADirectory" "Is a directory"
  | .notDirectory  => system 20 "NotADirectory" "Not a directory"
  | .nameTooLong   => system 36 "InvalidFilename" "File name too long"
  | .notText       =>
    record "Error"
      [("kind", "InvalidData"), ("message", plain "stream did not contain valid UTF-8")]
  | .other message => record "Error" [("kind", "Other"), ("message", plain message)]

end Report

end Chip8
