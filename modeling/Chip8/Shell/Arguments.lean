/-! # Arguments — the command line as a command

    The first argument names the command.  Options may stand anywhere after it,
    each at most once, with their value attached or in the next argument; what
    follows a lone double dash is no option.  The arguments are read in order, and
    the first that is out of place is a usage error, unless help was asked for
    before it. -/

namespace Chip8

/-- How a program is run from the command line. -/
structure RunOptions where
  millis : Nat
  hz : Nat
  throughX : Bool
  seed : Option Nat
  deriving DecidableEq, Repr

/-- What the command line asks for. -/
inductive Command where
  | assemble (input output : String)
  | disassemble (image : String)
  | run (image : String) (options : RunOptions)
  | help
  deriving DecidableEq, Repr

namespace Arguments

/-! ## Numbers -/

/-- The number that decimal digits spell. -/
def digits? (cs : List Char) : Option Nat :=
  if cs ≠ [] ∧ cs.all Char.isDigit then
    some (cs.foldl (fun n c => 10 * n + (c.toNat - 48)) 0)
  else none

/-- A number below a bound, with or without a plus sign. -/
def number? (bound : Nat) (s : String) : Option Nat :=
  let cs := match s.toList with
    | '+' :: r => r
    | cs       => cs
  (digits? cs).filter (· < bound)

/-- A number below a bound, read as a signed one, so that a negative zero is one
    too. -/
def signedNumber? (bound : Nat) (s : String) : Option Nat :=
  match s.toList with
  | '-' :: r => (digits? r).filter (· = 0)
  | _        => number? bound s

/-- The first number that a 32-bit field cannot hold. -/
def bound32 : Nat := 0x100000000

/-- The first number that a 64-bit field cannot hold. -/
def bound64 : Nat := 0x10000000000000000

/-! ## Options -/

/-- What has been read so far. -/
structure Parsed where
  positional : List String
  millis : Option Nat
  hz : Option Nat
  throughX : Bool
  seed : Option Nat
  help : Bool
  deriving DecidableEq, Repr

/-- Nothing has been read. -/
def Parsed.empty : Parsed := ⟨[], none, none, false, none, false⟩

/-- An option that takes a value. -/
inductive Valued where
  | millis | hz | seed
  deriving DecidableEq, Repr

/-- The option of a long name. -/
def Valued.ofName? : String → Option Valued
  | "millis" => some .millis
  | "hz"     => some .hz
  | "seed"   => some .seed
  | _        => none

/-- The value stored, unless it is malformed or the option was given before. -/
def Parsed.store (p : Parsed) (o : Valued) (value : String) : Option Parsed :=
  match o with
  | .millis =>
    if p.millis.isSome then none
    else (number? bound64 value).map fun n => { p with millis := some n }
  | .hz =>
    if p.hz.isSome then none
    else (signedNumber? bound32 value).map fun n => { p with hz := some n }
  | .seed =>
    if p.seed.isSome then none
    else (number? bound64 value).map fun n => { p with seed := some n }

/-- The flag set, unless it was given before. -/
def Parsed.setThroughX (p : Parsed) : Option Parsed :=
  if p.throughX then none else some { p with throughX := true }

/-- What an argument is by its spelling. -/
inductive Token where
  | plain (value : String)
  | separator
  /-- A long option, with the value attached to it by an equals sign if any. -/
  | long (name : String) (value : Option String)
  /-- Short options behind one dash. -/
  | short (letters : List Char)
  deriving DecidableEq, Repr

/-- What an argument is by its spelling. -/
def Token.ofArgument (s : String) : Token :=
  match s.toList with
  | ['-', '-']     => .separator
  | '-' :: '-' :: r =>
    let name := r.takeWhile (· ≠ '=')
    match r.dropWhile (· ≠ '=') with
    | _ :: value => .long (String.ofList name) (some (String.ofList value))
    | []         => .long (String.ofList name) none
  | ['-']          => .plain s
  | '-' :: r       => .short r
  | _              => .plain s

/-- Whether an argument can be the value of the option before it. -/
def value? (s : String) : Option String :=
  match Token.ofArgument s with
  | .plain v => some v
  | _        => none

/-- The values that are no options taken as well, unless they are more than
    `count` then. -/
def Parsed.take (count : Nat) (p : Parsed) (values : List String) : Option Parsed :=
  if p.positional.length + values.length ≤ count then
    some { p with positional := p.positional ++ values }
  else none

/-- Whether an argument asks for help. -/
def Token.isHelp : Token → Bool
  | .long "help" none  => true
  | .short ('h' :: _)  => true
  | _                  => false

/-- The arguments after the command, read in order; `count` is how many of them
    may be no options, and `options` tells whether the command takes the options
    of a run. -/
def parse (count : Nat) (options : Bool) : List String → Parsed → Option Parsed
  | [], p => some p
  | s :: rest, p =>
    if (Token.ofArgument s).isHelp then some { p with help := true }
    else match Token.ofArgument s with
    | .plain v   => (p.take count [v]).bind (parse count options rest)
    | .separator => p.take count rest
    | .long "bulk-through-x" none =>
      if options then p.setThroughX.bind (parse count options rest) else none
    | .long name attached =>
      match Valued.ofName? name, attached with
      | some o, some v => if options then (p.store o v).bind (parse count options rest) else none
      | some o, none   =>
        match rest with
        | v :: rest =>
          if options then
            ((value? v).bind (p.store o ·)).bind (parse count options rest)
          else none
        | [] => none
      | none, _ => none
    | .short ['m'] =>
      match rest with
      | v :: rest =>
        if options then
          ((value? v).bind (p.store .millis ·)).bind (parse count options rest)
        else none
      | [] => none
    | .short ('m' :: '=' :: v) | .short ('m' :: v) =>
      if options then (p.store .millis (String.ofList v)).bind (parse count options rest) else none
    | .short _ => none

/-- What is named after the command that helps: nothing or one command. -/
def topic? : List String → Option Command
  | [] | ["asm"] | ["disasm"] | ["run"] | ["help"] => some .help
  | _ => none

/-- The command that the arguments make up; `none` is a usage error. -/
def command? : List String → Option Command
  | "asm" :: rest => do
    let p ← parse 2 false rest .empty
    if p.help then return .help
    match p.positional with
    | [input, output] => some (.assemble input output)
    | _               => none
  | "disasm" :: rest => do
    let p ← parse 1 false rest .empty
    if p.help then return .help
    match p.positional with
    | [image] => some (.disassemble image)
    | _       => none
  | "run" :: rest => do
    let p ← parse 1 true rest .empty
    if p.help then return .help
    match p.positional with
    | [image] =>
      some (.run image ⟨p.millis.getD 1000, p.hz.getD 500, p.throughX, p.seed⟩)
    | _       => none
  | "help" :: rest => topic? rest
  | s :: _ => if (Token.ofArgument s).isHelp then some .help else none
  | [] => none

end Arguments

end Chip8
