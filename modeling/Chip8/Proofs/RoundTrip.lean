import Chip8.Proofs.Diagnosis

/-! # Round trips — an image against its own listing, assembled

    A word that stands for an instruction is the word of that instruction but for one
    digit: a shift is written with one register, and the digit of the other is lost.  So
    an image whose words all stand for instructions comes back from its listing with just
    these digits cleared.  Since no shift looks at that digit, what comes back is read as
    the same instructions, and the next round trip changes nothing. -/

namespace Chip8

/-! ## Words put together from their fields -/

theorem eq_ofNat_of_toNat {b : Byte} {k : Nat} (h : b.toNat = k) : b = BitVec.ofNat 8 k := by
  rw [← h, BitVec.ofNat_toNat, BitVec.setWidth_eq]

namespace Opcode

theorem ofAddress_fields (w : Word) : ofAddress (family w) (nnn w) = w := by
  apply BitVec.eq_of_toNat_eq
  rw [toNat_ofAddress (family_lt w), nnn, toNat_wrap, family]
  omega

theorem ofByte_fields (w : Word) : ofByte (family w) (x w) (kk w) = w := by
  apply BitVec.eq_of_toNat_eq
  rw [toNat_ofByte (family_lt w), kk, lowByte, x, BitVec.toNat_ofNat, BitVec.toNat_ofNat, family]
  omega

theorem ofDigits_fields (w : Word) : ofDigits (family w) (x w) (y w) (n w) = w := by
  apply BitVec.eq_of_toNat_eq
  rw [toNat_ofDigits (family_lt w), x, y, n, BitVec.toNat_ofNat, BitVec.toNat_ofNat,
    BitVec.toNat_ofNat, family]
  omega

/-- Whether a word is the word of a shift. -/
def IsShift (w : Word) : Prop := family w = 0x8 ∧ (n w = 0x6 ∨ n w = 0xE)

instance : DecidablePred IsShift := fun w =>
  inferInstanceAs (Decidable (family w = 0x8 ∧ (n w = 0x6 ∨ n w = 0xE)))

/-- The word with the second register of a shift set to zero. -/
def shiftCleared (w : Word) : Word := if IsShift w then ofDigits 0x8 (x w) 0 (n w) else w

theorem not_isShift {w : Word} {d : Byte} (hlast : n w = d) (hd : d ≠ 0x6 ∧ d ≠ 0xE) :
    ¬ IsShift w := by
  rintro ⟨-, h6 | hE⟩
  · exact hd.1 (hlast.symm.trans h6)
  · exact hd.2 (hlast.symm.trans hE)

theorem shiftCleared_of_isShift {w : Word} (h : IsShift w) :
    shiftCleared w = ofDigits 0x8 (x w) 0 (n w) := if_pos h

theorem shiftCleared_of_family {w : Word} (h : family w ≠ 0x8) : shiftCleared w = w :=
  if_neg fun hshift => h hshift.1

end Opcode

open Opcode

namespace Instruction

/-- A word of family 8 comes back from its instruction but for the digit of a shift. -/
theorem encode_of_decodeArith {w : Word} {i : Instruction} (hfamily : family w = 0x8)
    (h : decodeArith w = some i) : i.encode = shiftCleared w := by
  have hdigits := ofDigits_fields w
  rw [hfamily] at hdigits
  rw [decodeArith] at h
  split at h <;> cases h
  case h_7 hn | h_9 hn =>
    have hlast := eq_ofNat_of_toNat hn
    have hshift : IsShift w := ⟨hfamily, by rw [hlast]; decide⟩
    rw [shiftCleared_of_isShift hshift, hlast]
    rfl
  all_goals
    rename_i hn
    have hlast := eq_ofNat_of_toNat hn
    rw [shiftCleared, if_neg (not_isShift hlast (by decide))]
    rw [hlast] at hdigits
    exact hdigits

/-- A word of family F comes back from its instruction. -/
theorem encode_of_decodeSingle {w : Word} {i : Instruction} (hfamily : family w = 0xF)
    (h : decodeSingle w = some i) : i.encode = w := by
  have hbyte := ofByte_fields w
  rw [hfamily] at hbyte
  rw [decodeSingle] at h
  split at h <;> cases h
  all_goals
    rename_i hkk
    rw [eq_ofNat_of_toNat hkk] at hbyte
    exact hbyte

/-- A word that stands for an instruction is the word of the instruction but for the digit
    of a shift. -/
theorem encode_of_decode {w : Word} {i : Instruction} (h : decode w = some i) :
    i.encode = shiftCleared w := by
  have hlt := family_lt w
  by_cases h8 : family w = 0x8
  · simp only [decode, h8] at h
    exact encode_of_decodeArith h8 h
  rw [shiftCleared_of_family h8]
  have haddress := ofAddress_fields w
  have hbyte := ofByte_fields w
  have hdigits := ofDigits_fields w
  rw [decode] at h
  generalize hf : family w = f at hlt h h8 haddress hbyte hdigits
  interval_cases f <;> simp only at h
  case «0» =>
    obtain rfl := Option.some.inj h
    split
    · exact Eq.symm ‹_›
    · split
      · exact Eq.symm ‹_›
      · exact haddress
  case «8» => exact absurd rfl h8
  case «1» | «2» | «10» | «11» =>
    obtain rfl := Option.some.inj h
    exact haddress
  case «3» | «4» | «6» | «7» | «12» =>
    obtain rfl := Option.some.inj h
    exact hbyte
  case «13» =>
    obtain rfl := Option.some.inj h
    exact hdigits
  case «5» | «9» =>
    split at h <;> cases h
    rename_i hn
    rw [hn] at hdigits
    exact hdigits
  case «14» =>
    split at h <;> cases h
    all_goals
      rename_i hkk
      rw [eq_ofNat_of_toNat hkk] at hbyte
      exact hbyte
  case «15» => exact encode_of_decodeSingle hf h

/-- No shift looks at the digit that is cleared. -/
theorem decode_shiftCleared (w : Word) : decode (shiftCleared w) = decode w := by
  by_cases h : IsShift w
  · rw [shiftCleared_of_isShift h]
    obtain ⟨hfamily, hlast⟩ := h
    have hx : lowDigit (x w) = x w := by
      refine lowDigit_of_lt ?_
      rw [x, BitVec.toNat_ofNat]
      omega
    rcases hlast with hlast | hlast <;>
      simp [decode, decodeArith, hfamily, hlast, hx, lowDigit_of_lt]
  · rw [shiftCleared, if_neg h]

/-- What a word stands for is in range. -/
theorem inRange_of_decode {w : Word} {i : Instruction} (h : decode w = some i) : i.InRange := by
  have hreduced : some i.reduced = some i := by
    rw [← decode_encode, encode_of_decode h, decode_shiftCleared, h]
  rw [← Option.some.inj hreduced]
  exact i.inRange_reduced

end Instruction

/-! ## Images -/

namespace Listing

/-- The second byte of a word, its first digit set to zero if the word is that of a shift,
    8xy6 or 8xyE. -/
def lowCleared (hi lo : Byte) : Byte :=
  if hi.toNat / 16 = 0x8 ∧ (lo.toNat % 16 = 0x6 ∨ lo.toNat % 16 = 0xE) then lo &&& 0x0F else lo

/-- The image with the third digit of every shift set to zero. -/
def shiftsCleared : List Byte → List Byte
  | hi :: lo :: r => hi :: lowCleared hi lo :: shiftsCleared r
  | r             => r

/-- The program that an image is read as, if all its words stand for instructions. -/
def program? (image : List Byte) : Option Program := (words image).mapM Instruction.decode

/-- What the instructions of an image are assembled to, if all its words stand for
    instructions. -/
def reassemble? (image : List Byte) : Option (Except SourceError (List Byte)) :=
  (program? image).map fun p => Source.assemble p.source

theorem isShift_bigEndian (hi lo : Byte) :
    IsShift (bigEndian hi lo) ↔
      hi.toNat / 16 = 0x8 ∧ (lo.toNat % 16 = 0x6 ∨ lo.toNat % 16 = 0xE) := by
  have hhi := hi.isLt
  have hlo := lo.isLt
  have h6 : (0x6 : Byte).toNat = 0x6 := rfl
  have hE : (0xE : Byte).toNat = 0xE := rfl
  simp only [IsShift, family, n, bigEndian, ← BitVec.toNat_inj, BitVec.toNat_ofNat, h6, hE]
  omega

/-- Clearing the digit leaves the first byte and the last digit of a shift alone. -/
theorem bigEndian_cleared {hi : Byte} (hfamily : hi.toNat / 16 = 0x8) (lo : Byte) :
    ofDigits 0x8 (x (bigEndian hi lo)) 0 (n (bigEndian hi lo)) = bigEndian hi (lo &&& 0x0F) := by
  have hhi := hi.isLt
  have hlo := lo.isLt
  have hdigit : (lo &&& 0x0F).toNat = lo.toNat % 16 := by
    rw [BitVec.toNat_and]
    exact Nat.and_two_pow_sub_one_eq_mod lo.toNat 4
  apply BitVec.eq_of_toNat_eq
  rw [toNat_ofDigits (by decide)]
  simp only [x, n, bigEndian, BitVec.toNat_ofNat, hdigit, show (0 : Byte).toNat = 0 from rfl]
  omega

theorem shiftCleared_bigEndian (hi lo : Byte) :
    shiftCleared (bigEndian hi lo) = bigEndian hi (lowCleared hi lo) := by
  rw [shiftCleared, lowCleared]
  by_cases h : IsShift (bigEndian hi lo)
  · have hbytes := (isShift_bigEndian hi lo).mp h
    rw [if_pos h, if_pos hbytes, bigEndian_cleared hbytes.1]
  · rw [if_neg h, if_neg (mt (isShift_bigEndian hi lo).mpr h)]

theorem words_shiftsCleared (image : List Byte) :
    words (shiftsCleared image) = (words image).map shiftCleared := by
  induction image using words.induct with
  | case1 hi lo r ih =>
      rw [words, shiftsCleared, words, ih, List.map_cons, shiftCleared_bigEndian]
  | case2 image hshort =>
      cases image with
      | nil => rfl
      | cons b r =>
          cases r with
          | nil => rfl
          | cons b' r => exact absurd rfl (hshort b b' r)

theorem program?_shiftsCleared (image : List Byte) :
    program? (shiftsCleared image) = program? image := by
  rw [program?, program?, words_shiftsCleared, List.mapM_map]
  congr 1
  funext w
  exact Instruction.decode_shiftCleared w

/-- An image whose words all stand for instructions is read as a program in range, and
    the image of that program has the digits of the shifts cleared. -/
theorem exists_program {image : List Byte} (heven : image.length % 2 = 0)
    (h : ∀ w ∈ words image, (Instruction.decode w).isSome) :
    ∃ p, program? image = some p ∧ (∀ i ∈ p, i.InRange) ∧ p.image = shiftsCleared image := by
  induction image using words.induct with
  | case1 hi lo r ih =>
      rw [words] at h
      obtain ⟨hfirst, hrest⟩ := List.forall_mem_cons.mp h
      obtain ⟨i, hi⟩ := Option.isSome_iff_exists.mp hfirst
      have hr : r.length % 2 = 0 := by
        rw [List.length_cons, List.length_cons] at heven
        omega
      obtain ⟨p, hp, hrange, himage⟩ := ih hr hrest
      rw [program?] at hp
      refine ⟨i :: p, ?_, ?_, ?_⟩
      · rw [program?, words, List.mapM_cons, hi, hp]
        rfl
      · exact List.forall_mem_cons.mpr ⟨Instruction.inRange_of_decode hi, hrange⟩
      · rw [Program.image_cons, Instruction.encode_of_decode hi, shiftCleared_bigEndian,
          highByte_bigEndian, lowByte_bigEndian, himage, shiftsCleared]
  | case2 image hshort =>
      cases image with
      | nil => exact ⟨[], rfl, List.forall_mem_nil _, rfl⟩
      | cons b r =>
          cases r with
          | nil => cases heven
          | cons b' r => exact absurd rfl (hshort b b' r)

/-- **ROUND TRIP**: an image of whole words that all stand for instructions is listed and
    assembled to itself, but for the third digits of its shifts, which are cleared; what
    comes back is read as the same instructions, and a second round trip changes
    nothing. -/
theorem round_trip {image : List Byte} (heven : image.length % 2 = 0)
    (h : ∀ w ∈ words image, (Instruction.decode w).isSome) :
    reassemble? image = some (.ok (shiftsCleared image)) ∧
    program? (shiftsCleared image) = program? image ∧
    reassemble? (shiftsCleared image) = some (.ok (shiftsCleared image)) := by
  obtain ⟨p, hp, hrange, himage⟩ := exists_program heven h
  have hassembled : Source.assemble p.source = .ok (shiftsCleared image) := by
    rw [Source.assemble_source hrange, himage]
  refine ⟨?_, program?_shiftsCleared image, ?_⟩
  · rw [reassemble?, hp, Option.map_some, hassembled]
  · rw [reassemble?, program?_shiftsCleared, hp, Option.map_some, hassembled]

/-- A shift with a second register between two words that only look like one. -/
theorem round_trip_shift :
    (∀ w ∈ words [0x61, 0x86, 0x81, 0xAE, 0x81, 0xA5], (Instruction.decode w).isSome) ∧
    reassemble? [0x61, 0x86, 0x81, 0xAE, 0x81, 0xA5] =
      some (.ok [0x61, 0x86, 0x81, 0x0E, 0x81, 0xA5]) ∧
    reassemble? [0x61, 0x86, 0x81, 0x0E, 0x81, 0xA5] =
      some (.ok [0x61, 0x86, 0x81, 0x0E, 0x81, 0xA5]) := by
  have hread : words [0x61, 0x86, 0x81, 0xAE, 0x81, 0xA5] = [0x6186, 0x81AE, 0x81A5] := rfl
  have hwords : ∀ w ∈ words [0x61, 0x86, 0x81, 0xAE, 0x81, 0xA5],
      (Instruction.decode w).isSome := by
    rw [hread]
    simp only [List.forall_mem_cons]
    exact ⟨rfl, rfl, rfl, by simp⟩
  have hcleared : shiftsCleared [0x61, 0x86, 0x81, 0xAE, 0x81, 0xA5] =
      [0x61, 0x86, 0x81, 0x0E, 0x81, 0xA5] := rfl
  obtain ⟨hfirst, -, hsecond⟩ :=
    @round_trip [0x61, 0x86, 0x81, 0xAE, 0x81, 0xA5] rfl hwords
  rw [hcleared] at hfirst hsecond
  exact ⟨hwords, hfirst, hsecond⟩

end Listing

end Chip8
