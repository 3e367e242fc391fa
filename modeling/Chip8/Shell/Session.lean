import Chip8.Assembly.Source
import Chip8.Listing
import Chip8.Machine.Run
import Chip8.Shell.Arguments
import Chip8.Shell.Files

/-! # Sessions — one call of the command line

    A session reads a file, assembles, lists or runs it, and ends with an exit
    code and what it prints.  A run ends when its time is over, when it fails or
    when it is parked, and shows the screen and the registers as they are then. -/

namespace Chip8

/-- What a session leaves on its streams. -/
structure Outcome where
  code : Nat
  stdout : String
  stderr : String
  deriving DecidableEq, Repr

namespace Session

/-- How the program is called. -/
def usage : String :=
  "CHIP-8 assembler and virtual machine\n\n" ++
  "Usage: chip8 <COMMAND>\n\n" ++
  "Commands:\n" ++
  "  asm <INPUT> <OUTPUT>  Assemble a source file into a program image\n" ++
  "  disasm <ROM>          List the instructions of a program image\n" ++
  "  run [OPTIONS] <ROM>   Run a program image headless and print the final state\n"

/-- A session that printed something and went well. -/
def success (stdout : String) : Outcome := ⟨0, stdout, ""⟩

/-- A session that failed. -/
def failure (stdout report : String) : Outcome := ⟨1, stdout, "Error: " ++ report ++ "\n"⟩

/-- Bytes as text, if they are UTF-8. -/
def decodeText (bytes : List Byte) : Except FileError Text :=
  match String.fromUTF8? ⟨(bytes.map fun b => UInt8.ofBitVec b).toArray⟩ with
  | some s => .ok s.toList
  | none   => .error .notText

/-- A text as a line. -/
def line (t : Text) : String := String.ofList (t ++ ['\n'])

/-! ## Runs -/

/-- The configuration of a run. -/
def configOf (o : RunOptions) : Config :=
  { Config.standard with
    pause := Config.pauseOfHertz o.hz
    bulk := if o.throughX then .throughX else .allRegisters
    seed := o.seed.map UInt64.ofNat }

/-- How long a step takes in a session, in nanoseconds: its pause, but never less than a
    hundred.  The time of a session goes by its steps, however long the host needs. -/
def pace (c : Config) : Nat := max c.pause 100

/-- Whether the time of a run is over or nothing changes any more. -/
def finished (millis : Nat) (p : Progress) (m : Machine) : Bool :=
  millis * 1000000 ≤ p.steps * pace m.config || m.parked

/-- The final state of a run as it is printed. -/
def stateReport (m : Machine) : String :=
  let s := m.registers.snapshot
  line m.screen.text ++
  "PC: " ++ shownWord 3 s.pc ++ "  SP: " ++ toString s.depth.toNat ++
  "  I: " ++ shownWord 3 s.index ++
  "  DT: " ++ toString s.delay.toNat ++ "  ST: " ++ toString s.sound.toNat ++ "\n" ++
  String.join (s.v.toList.zipIdx.map fun (value, k) =>
    "V" ++ String.ofList (Text.hex 1 k) ++ ": 0x" ++ String.ofList (Text.hex 2 value.toNat) ++
      "\n")

/-- The outcome of running a loaded machine for a time. -/
def runMachine (millis : Nat) (m : Machine) : Outcome :=
  match m.run (finished millis) 0 (· * pace m.config) (millis * 1000000) with
  | (.failed f, _, m) => failure (stateReport m) (Report.ofFault f)
  | (_, _, m)         => success (stateReport m)

/-! ## Commands -/

variable {m : Type → Type} [Monad m]

/-- Reads a file and goes on with its contents. -/
def withFile (files : Files m) (path : String) (next : List Byte → m Outcome) : m Outcome := do
  match ← files.read path with
  | .error e  => return failure "" (Report.ofFileError e)
  | .ok bytes => next bytes

/-- Carries a command out. -/
def perform (files : Files m) (source : RandomSource) : Command → m Outcome
  | .help => return success usage
  | .assemble input output => withFile files input fun bytes => do
    match decodeText bytes with
    | .error e   => return failure "" (Report.ofFileError e)
    | .ok text =>
      match Source.assemble text with
      | .error e  => return failure "" (Report.ofSourceError e)
      | .ok image =>
        match ← files.write output image with
        | .error e => return failure "" (Report.ofFileError e)
        | .ok ()   => return success ""
  | .disassemble image => withFile files image fun bytes =>
    return success (String.join ((Listing.lines bytes).map line))
  | .run image options => withFile files image fun bytes =>
    match Machine.load source bytes .absent (configOf options) with
    | .error f => return failure "" (Report.ofFault f)
    | .ok m    => return runMachine options.millis m

/-- A whole session; arguments that make up no command are a usage error. -/
def run (files : Files m) (source : RandomSource) (args : List String) : m Outcome :=
  match Arguments.command? args with
  | some c => perform files source c
  | none   => return ⟨2, "", usage⟩

end Session

end Chip8
