import Chip8.Machine.Random

/-! # Keystream — the random bytes of the command line

    The random bytes are the low bytes of the words of a ChaCha20 keystream: the
    key is drawn from the seed by a linear generator with permuted output, the
    nonce is zero and the block counter has 64 bits.  A byte depends on nothing
    but the seed and its position. -/

namespace Chip8

namespace Keystream

/-! ## The key -/

/-- One step of the generator that spreads a seed. -/
def spread (s : UInt64) : UInt64 := s * 6364136223846793005 + 11634580027462260723

/-- The word that a state of the generator puts out. -/
def permuted (s : UInt64) : UInt32 :=
  let x := (((s >>> 18) ^^^ s) >>> 27).toUInt32
  let r := (s >>> 59).toUInt32
  (x >>> r) ||| (x <<< ((32 - r) % 32))

/-- The first `n` words of the generator. -/
def keyWords : Nat → UInt64 → List UInt32
  | 0,     _ => []
  | n + 1, s => permuted (spread s) :: keyWords n (spread s)

/-! ## Blocks -/

/-- A block or the state that it is made of. -/
abbrev Block := Vector UInt32 16

/-- A word with its bits moved to the left, around the end. -/
def rotate (w : UInt32) (n : UInt32) : UInt32 := (w <<< n) ||| (w >>> (32 - n))

/-- Mixes four words of a block. -/
def quarterRound (s : Block) (a b c d : Fin 16) : Block :=
  let s := s.set a (s[a] + s[b]) a.isLt
  let s := s.set d (rotate (s[d] ^^^ s[a]) 16) d.isLt
  let s := s.set c (s[c] + s[d]) c.isLt
  let s := s.set b (rotate (s[b] ^^^ s[c]) 12) b.isLt
  let s := s.set a (s[a] + s[b]) a.isLt
  let s := s.set d (rotate (s[d] ^^^ s[a]) 8) d.isLt
  let s := s.set c (s[c] + s[d]) c.isLt
  s.set b (rotate (s[b] ^^^ s[c]) 7) b.isLt

/-- The columns and then the diagonals of a block. -/
def quarters : List (Fin 16 × Fin 16 × Fin 16 × Fin 16) :=
  [(0, 4, 8, 12), (1, 5, 9, 13), (2, 6, 10, 14), (3, 7, 11, 15),
   (0, 5, 10, 15), (1, 6, 11, 12), (2, 7, 8, 13), (3, 4, 9, 14)]

/-- Two rounds. -/
def doubleRound (s : Block) : Block :=
  quarters.foldl (fun s (a, b, c, d) => quarterRound s a b c d) s

/-- A number of double rounds. -/
def doubleRounds : Nat → Block → Block
  | 0,     s => s
  | n + 1, s => doubleRounds n (doubleRound s)

/-- The state before the rounds. -/
def initialBlock (key : List UInt32) (counter : UInt64) : Block :=
  Vector.ofFn fun i =>
    if i.val < 4 then #v[0x61707865, 0x3320646e, 0x79622d32, 0x6b206574][i.val % 4]
    else if i.val < 12 then key[i.val - 4]?.getD 0
    else if i.val = 12 then counter.toUInt32
    else if i.val = 13 then (counter >>> 32).toUInt32
    else 0

/-- A block of the keystream. -/
def block (key : List UInt32) (counter : UInt64) : Block :=
  let s := initialBlock key counter
  Vector.zipWith (· + ·) s (doubleRounds 10 s)

/-- The random byte at a position of the stream of a seed. -/
def byteAt (seed : UInt64) (position : Nat) : Byte :=
  let words := block (keyWords 8 seed) (UInt64.ofNat (position / 16))
  let word := words[position % 16]
  BitVec.ofNat 8 word.toNat

/-- The keystreams as a source.  A machine without a seed gets the stream of a seed that
    the host has drawn. -/
def source (drawn : UInt64) : RandomSource where
  seeded := byteAt
  entropy := byteAt drawn

end Keystream

end Chip8
