import Chip8.Machine.Keys

/-! # Shared pad — a keypad that other hands press while the machine waits

    The pad counts the presses that it accepted.  A waiter notes the count when it
    begins, and its checks answer by the pad as it is then: closed, a new press —
    the latest one —, or nothing yet.  So presses before the wait are not
    delivered, and a press is delivered even when the key has been released. -/

namespace Chip8

/-- The state of the pad. -/
structure SharedPad where
  down : Keys
  /-- How many presses have been accepted. -/
  presses : BitVec 64
  lastPress : Byte
  closed : Bool
  deriving DecidableEq, Repr

/-- What another hand can do to the pad. -/
inductive PadEvent where
  | press (code : Byte)
  | release (code : Byte)
  | close
  deriving DecidableEq, Repr

/-- What a check of a waiter answers. -/
inductive WaitAnswer where
  | pressed (code : Byte)
  | closed
  /-- Nothing happened yet, the wait goes on. -/
  | silent
  deriving DecidableEq, Repr

namespace SharedPad

/-- A pad that nobody has touched. -/
def fresh : SharedPad := ⟨0, 0, 0, false⟩

/-- Presses a key; codes that name none are ignored. -/
def press (p : SharedPad) (code : Byte) : SharedPad :=
  if code.toNat ≤ 15 then
    { p with down := p.down.insert code, presses := p.presses + 1, lastPress := code }
  else p

/-- Releases a key. -/
def release (p : SharedPad) (code : Byte) : SharedPad := { p with down := p.down.erase code }

/-- Ends every wait, now and later. -/
def close (p : SharedPad) : SharedPad := { p with closed := true }

/-- The pad after an event. -/
def apply (p : SharedPad) : PadEvent → SharedPad
  | .press code   => p.press code
  | .release code => p.release code
  | .close        => p.close

/-- The pad after events in order. -/
def applyAll (p : SharedPad) (events : List PadEvent) : SharedPad := events.foldl apply p

/-- What a waiter finds that began when the count of presses was `seen`. -/
def check (p : SharedPad) (seen : BitVec 64) : WaitAnswer :=
  if p.closed then .closed
  else if p.presses ≠ seen then .pressed p.lastPress
  else .silent

/-- What a waiter that checks before the first event and after each one finds at
    last. -/
def answer (p : SharedPad) (seen : BitVec 64) : List PadEvent → WaitAnswer
  | []     => p.check seen
  | e :: r =>
    match p.check seen with
    | .silent => (p.apply e).answer seen r
    | found   => found

/-- What a wait answers that begins now, with the events happening meanwhile. -/
def wait (p : SharedPad) (events : List PadEvent) : WaitAnswer := p.answer p.presses events

end SharedPad

end Chip8
