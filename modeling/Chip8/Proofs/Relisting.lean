import Chip8.Program
import Chip8.Proofs.LineEnds
import Chip8.Proofs.Spelling

/-! # Relisting — assembled images are listed and assembled again

    Every statement that assembles is the statement of an instruction, so an
    assembled image is the image of a program.  The words of the program read back
    as its instructions with their operands reduced, and reduced instructions are in
    range: their texts assemble to the words they came from.  Hence an image that
    was assembled once is listed without question marks, and its listing assembles
    to the image. -/

namespace Chip8

/-! ## Programs in range assemble -/

namespace Source

/-- A line that holds the text of an instruction in range adds its bytes. -/
theorem assembleLines_texts {p : Program} (h : ∀ i ∈ p, i.InRange) (n : Nat) :
    assembleLines n (p.map Instruction.text) = .ok p.image := by
  induction p generalizing n with
  | nil => rfl
  | cons i p ih =>
      have hi : lineWord? i.text = .ok (some i.encode) :=
        Instruction.lineWord?_text (h i (by simp))
      have hp := ih (fun j hj => h j (by simp [hj])) (n + 1)
      rw [List.map_cons, assembleLines, hi]
      simp only [hp]
      rfl

/-- The source of a program in range assembles to the image of the program. -/
theorem assemble_source {p : Program} (h : ∀ i ∈ p, i.InRange) :
    assemble p.source = .ok p.image := by
  cases p with
  | nil => rfl
  | cons i p =>
      have hpieces :
          Text.fields '\n' (Program.source (i :: p)) = (i :: p).map Instruction.text := by
        refine Text.fields_join (by simp) fun t ht => ?_
        obtain ⟨j, -, rfl⟩ := List.mem_map.mp ht
        exact j.not_mem_text.1
      rw [assemble_eq_fields, hpieces, assembleLines_texts h]

/-! ## What assembles is a program -/

/-- The bytes of a line are those of an instruction, or none. -/
theorem lineWord?_eq_encode {line : Text} {w : Word} (h : lineWord? line = .ok (some w)) :
    ∃ i : Instruction, w = i.encode := by
  simp only [lineWord?] at h
  split at h
  · cases h
  · simp only [Statement.encode_eq_map] at h
    cases hi : Statement.instruction (splitLine (stripComment line)).1
        (splitLine (stripComment line)).2 with
    | error e =>
        rw [hi] at h
        cases h
    | ok i =>
        rw [hi] at h
        exact ⟨i, (Option.some.inj (Except.ok.inj h)).symm⟩

theorem assembleLines_eq_image {ls : List Text} {n : Nat} {image : List Byte}
    (h : assembleLines n ls = .ok image) : ∃ p : Program, image = p.image := by
  induction ls generalizing n image with
  | nil => exact ⟨[], (Except.ok.inj h).symm⟩
  | cons line r ih =>
      rw [assembleLines] at h
      cases hw : lineWord? line with
      | error e =>
          rw [hw] at h
          cases h
      | ok w =>
          rw [hw] at h
          cases hr : assembleLines (n + 1) r with
          | error e =>
              simp only [hr] at h
              cases h
          | ok rest =>
              simp only [hr] at h
              obtain ⟨p, rfl⟩ := ih hr
              have himage : bytesOf w ++ p.image = image := Except.ok.inj h
              -- a line without a statement adds nothing, any other an instruction
              cases w with
              | none => exact ⟨p, himage.symm⟩
              | some w =>
                  obtain ⟨i, rfl⟩ := lineWord?_eq_encode hw
                  exact ⟨i :: p, himage.symm⟩

/-- An assembled image is the image of a program. -/
theorem assemble_eq_image {source : Text} {image : List Byte}
    (h : assemble source = .ok image) : ∃ p : Program, image = p.image :=
  assembleLines_eq_image h

end Source

/-! ## Listing an image of a program -/

namespace Program

/-- The program that the image of a program is read as. -/
def reduced (p : Program) : Program := p.map Instruction.reduced

theorem image_reduced (p : Program) : p.reduced.image = p.image := by
  induction p with
  | nil => rfl
  | cons i p ih =>
      show image (i.reduced :: reduced p) = _
      rw [image_cons, image_cons, Instruction.encode_reduced, ih]

theorem inRange_reduced (p : Program) : ∀ i ∈ p.reduced, i.InRange := by
  intro i hi
  obtain ⟨j, -, rfl⟩ := List.mem_map.mp hi
  exact j.inRange_reduced

/-- Every word of the image of a program stands for an instruction. -/
theorem decode_words_image (p : Program) :
    (Listing.words p.image).map Instruction.decode = p.reduced.map some := by
  rw [Listing.words_image, reduced, List.map_map, List.map_map]
  exact List.map_congr_left fun i _ => i.decode_encode

end Program

namespace Listing

/-- The line of the word of an instruction holds no question mark. -/
theorem not_mem_wordLine (a : Word) (i : Instruction) :
    '?' ∉ wordLine a (highByte i.encode) (lowByte i.encode) := by
  have hhex : ∀ w n, '?' ∉ Text.hex w n := fun w n => (Text.plain_hex w n).not_mem (by decide)
  have hcolumn : instructionColumn i.encode = i.reduced.text := by
    rw [instructionColumn, i.decode_encode]
  rw [wordLine, bigEndian_highByte_lowByte, hcolumn, addressColumn]
  simp [hhex, i.reduced.not_mem_text.2]

theorem not_mem_linesFrom (p : Program) (a : Word) : ∀ line ∈ linesFrom a p.image, '?' ∉ line := by
  induction p generalizing a with
  | nil =>
      intro line h
      cases h
  | cons i p ih =>
      intro line h
      rw [Program.image_cons, linesFrom] at h
      rcases List.mem_cons.mp h with rfl | hrest
      · exact not_mem_wordLine a i
      · exact ih (a + 2) line hrest

end Listing

/-- **RELISTING**: whatever a source is, the image it assembles to consists of whole
    words, each of which stands for an instruction; it is listed without question
    marks, and the listed instructions assemble to the same image. -/
theorem Source.relisting {source : Text} {image : List Byte}
    (h : assemble source = .ok image) :
    ∃ p : Program, image.length = 2 * p.length ∧
      (Listing.words image).map Instruction.decode = p.map some ∧
      (∀ line ∈ Listing.lines image, '?' ∉ line) ∧
      assemble p.source = .ok image := by
  obtain ⟨p, rfl⟩ := assemble_eq_image h
  refine ⟨p.reduced, ?_, p.decode_words_image, Listing.not_mem_linesFrom p programStart, ?_⟩
  · rw [Program.length_image, Program.reduced, List.length_map]
  · rw [assemble_source p.inRange_reduced, p.image_reduced]

/-- A shift keeps no second register, and a call of the host's routine 0E0 is listed as
    clearing the screen. -/
theorem Source.relisting_shift_sys :
    assemble "shr v1 ; half\nSYS 0e0".toList = .ok [0x81, 0x06, 0x00, 0xE0] ∧
    ∃ p : Program, [0x81, 0x06, 0x00, 0xE0].length = 2 * p.length ∧
      (Listing.words [0x81, 0x06, 0x00, 0xE0]).map Instruction.decode = p.map some ∧
      (∀ line ∈ Listing.lines [0x81, 0x06, 0x00, 0xE0], '?' ∉ line) ∧
      assemble p.source = .ok [0x81, 0x06, 0x00, 0xE0] := by
  have h : assemble "shr v1 ; half\nSYS 0e0".toList = .ok [0x81, 0x06, 0x00, 0xE0] := by decide
  exact ⟨h, relisting h⟩

end Chip8
