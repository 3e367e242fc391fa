import Chip8.Word

/-! # Random bytes — streams that machines draw from

    A machine does not make its random bytes.  It is given a source, which has a stream
    for every seed and one for a machine without a seed, and takes bytes from the stream
    in order; of what it has taken it keeps the number alone. -/

namespace Chip8

/-- Where random bytes come from: each stream by the position of its bytes. -/
structure RandomSource where
  seeded : UInt64 → Nat → Byte
  /-- The stream for want of a seed. -/
  entropy : Nat → Byte

/-- A stream of random bytes and how much of it has been used. -/
structure RandomStream where
  bytes : Nat → Byte
  position : Nat

/-- The stream that a source has for a seed, none of it used. -/
def RandomSource.stream (source : RandomSource) : Option UInt64 → RandomStream
  | some seed => ⟨source.seeded seed, 0⟩
  | none      => ⟨source.entropy, 0⟩

namespace RandomStream

/-- The next byte. -/
def next (s : RandomStream) : Byte := s.bytes s.position

/-- The stream with one byte more used. -/
def advance (s : RandomStream) : RandomStream := { s with position := s.position + 1 }

end RandomStream

end Chip8
