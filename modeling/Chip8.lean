import Chip8.Main
import Chip8.Program
import Chip8.Proofs.Atomicity
import Chip8.Proofs.Blit
import Chip8.Proofs.Encoding
import Chip8.Proofs.Spelling
import Chip8.Proofs.Relisting
import Chip8.Proofs.Footprint
import Chip8.Proofs.StraightLine
import Chip8.Proofs.Reachable
import Chip8.Proofs.CallStack
import Chip8.Proofs.Diagnosis
import Chip8.Proofs.Bracketing
import Chip8.Proofs.Meaning
import Chip8.Proofs.Alignment
import Chip8.Proofs.IndexRegister
import Chip8.Proofs.RoundTrip
import Chip8.Proofs.Rounds
import Chip8.Proofs.Fetching
import Chip8.Proofs.Ticks
import Chip8.Proofs.Concatenation
import Chip8.Proofs.Sprites
import Chip8.Proofs.RandomBytes
import Chip8.Proofs.Interleaving
import Chip8.Proofs.LetterCase
import Chip8.Proofs.ListedWords
import Chip8.Proofs.Layout
import Chip8.Proofs.Forms
import Chip8.Proofs.Refusals
import Chip8.Proofs.Marks
import Chip8.Proofs.Ranges
import Chip8.Proofs.Drawing
import Chip8.Proofs.Arithmetic
import Chip8.Proofs.Effects
import Chip8.Proofs.Transfers
import Chip8.Proofs.BulkSettings
import Chip8.Proofs.Recovery
import Chip8.Proofs.PrintedLines
import Chip8.Proofs.CanonicalNames
import Chip8.Proofs.LastWrites
import Chip8.Proofs.SideBySide
import Chip8.Proofs.SoundTimer
import Chip8.Proofs.HeldKeys
import Chip8.Proofs.Pictures
import Chip8.Proofs.Literals
