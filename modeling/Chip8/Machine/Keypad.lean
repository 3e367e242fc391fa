import Chip8.Machine.SharedPad

/-! # Keypads — where the machine reads its keys

    A keypad is absent, shared with other hands, or a script of held keys and
    presses to come.  The machine asks it two things: which keys are held, and
    which key is pressed next. -/

namespace Chip8

/-- A keypad as the machine sees it. -/
inductive Keypad where
  /-- Nobody presses anything, and waiting ends at once. -/
  | absent
  /-- A shared pad, with what other hands do to it during the next wait. -/
  | shared (pad : SharedPad) (coming : List PadEvent)
  /-- Held keys and the presses that waiting delivers, one after the other. -/
  | script (down : Keys) (presses : List Byte)
  deriving DecidableEq, Repr

namespace Keypad

/-- The keys that are held down. -/
def held : Keypad → Keys
  | absent        => 0
  | shared pad _  => pad.down
  | script down _ => down

/-- Waits for a key: how the wait ends, and the keypad as it is then.  When a press
    ends the wait, the events to come have come; otherwise they are still to come. -/
def await : Keypad → WaitAnswer × Keypad
  | absent               => (.closed, absent)
  | shared pad coming    =>
    match pad.wait coming with
    | .pressed code => (.pressed code, shared (pad.applyAll coming) [])
    | answer        => (answer, shared pad coming)
  | script down []       => (.closed, script down [])
  | script down (k :: r) => (.pressed k, script down r)

/-- The keypad with a key pressed from outside. -/
def press (k : Keypad) (code : Byte) : Keypad :=
  match k with
  | absent            => absent
  | shared pad coming => shared (pad.press code) coming
  | script down r     => script (down.insert code) r

/-- The keypad with a key released from outside. -/
def release (k : Keypad) (code : Byte) : Keypad :=
  match k with
  | absent            => absent
  | shared pad coming => shared (pad.release code) coming
  | script down r     => script (down.erase code) r

/-- The keypad with no press to come any more. -/
def close : Keypad → Keypad
  | absent            => absent
  | shared pad coming => shared pad.close coming
  | script down _     => script down []

/-- The keypad with another press put at the end of the script. -/
def enqueue (k : Keypad) (code : Byte) : Keypad :=
  match k with
  | script down r => script down (r ++ [code])
  | other         => other

/-- The shared keypad with an event that will come while the machine waits. -/
def expect (k : Keypad) (event : PadEvent) : Keypad :=
  match k with
  | shared pad coming => shared pad (coming ++ [event])
  | other             => other

/-- The keypad after the events to come have come, whether awaited or not. -/
def settle : Keypad → Keypad
  | shared pad coming => shared (pad.applyAll coming) []
  | other             => other

end Keypad

end Chip8
