import Chip8.Shell.Keystream
import Chip8.Shell.Session

/-! # The program — a session on the files of the disk -/

namespace Chip8

/-- The number of a failure, which may be reported negated. -/
def failureNumber (code : UInt32) : Nat :=
  if code < 0x80000000 then code.toNat else (0 - code).toNat

/-- What the system says about a file, as a file error. -/
def fileErrorOf (e : IO.Error) : FileError :=
  match e with
  | .noFileOrDirectory .. => .notFound
  | .inappropriateType _ code _ | .invalidArgument _ code _ =>
    match failureNumber code with
    | 20 => .notDirectory
    | 21 => .isDirectory
    | 36 => .nameTooLong
    | _  => .other (toString e)
  | e => .other (toString e)

/-- The files of the disk. -/
def diskFiles : Files IO where
  read path := do
    match ← (IO.FS.readBinFile path).toBaseIO with
    | .ok bytes => return .ok (bytes.toList.map UInt8.toBitVec)
    | .error e  => return .error (fileErrorOf e)
  write path bytes := do
    match ← (IO.FS.writeBinFile path ⟨(bytes.map UInt8.ofBitVec).toArray⟩).toBaseIO with
    | .ok ()   => return .ok ()
    | .error e => return .error (fileErrorOf e)

end Chip8

open Chip8 in
/-- Carries out what the arguments ask for. -/
def main (args : List String) : IO UInt32 := do
  let drawn ← IO.rand 0 (Arguments.bound64 - 1)
  let outcome ← Session.run diskFiles (Keystream.source (UInt64.ofNat drawn)) args
  IO.print outcome.stdout
  IO.eprint outcome.stderr
  return UInt32.ofNat outcome.code
