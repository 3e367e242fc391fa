import Chip8.Assembly.Statement

/-! # Sources — lines of statements as a program image

    A line holds at most one statement; a semicolon begins a comment that runs to
    the end of the line.  Every statement becomes two bytes, high byte first, in
    the order of the lines. -/

namespace Chip8.Source

/-! ## Lines -/

/-- The line without its comment and without blanks around it. -/
def stripComment (line : Text) : Text := Text.trim (line.takeWhile (· ≠ ';'))

/-- The mnemonic that begins a line and the operands between its commas, all in
    upper case. -/
def splitLine (line : Text) : Text × List Text :=
  let line := Text.trim line
  let rest := Text.trim (Text.afterFirstWord line)
  (Text.upper (Text.firstWord line),
    if rest = [] then [] else (Text.fields ',' rest).map Token.ofOperand)

/-- The word of a line, if there is a statement on it. -/
def lineWord? (line : Text) : Except StatementError (Option Word) :=
  let code := stripComment line
  if code = [] then .ok none
  else (Statement.encode (splitLine code).1 (splitLine code).2).map some

/-! ## Whole sources -/

/-- The two bytes of a word, high byte first; nothing for a line without one. -/
def bytesOf : Option Word → List Byte
  | none   => []
  | some w => [highByte w, lowByte w]

/-- The image of lines of which the first has number `n`. -/
def assembleLines : Nat → List Text → Except SourceError (List Byte)
  | _, []        => .ok []
  | n, line :: r =>
    match lineWord? line with
    | .error e => .error ⟨n, e⟩
    | .ok w    => (assembleLines (n + 1) r).map (bytesOf w ++ ·)

/-- A line that a line end divides from the next, without the carriage return that may
    belong to that end. -/
def withoutReturn (line : Text) : Text :=
  if line.getLast? = some '\r' then line.dropLast else line

/-- The lines of the pieces between newlines.  Behind the last newline there is a line
    only if there is something. -/
def linesOf : List Text → List Text
  | []        => []
  | [last]    => if last = [] then [] else [last]
  | line :: r => withoutReturn line :: linesOf r

/-- The lines of a source.  A line ends with a newline, or with a carriage return and a
    newline, and the last one needs no end. -/
def lines (source : Text) : List Text := linesOf (Text.fields '\n' source)

example : lines [] = [] ∧ lines "cls\r\n\nret\n".toList = ["cls".toList, [], "ret".toList] := by
  decide

/-- The program image of a source. -/
def assemble (source : Text) : Except SourceError (List Byte) :=
  assembleLines 1 (lines source)

end Chip8.Source
