import Chip8.Listing
import Chip8.Proofs.Spelling
import Mathlib.Data.List.Forall2

/-! # Recovery — the bytes of an image, read back from its listing

    A line begins with its address and its one or two bytes, each a hexadecimal number, and
    two blanks end these columns whatever comes behind them.  So cutting a line at its blanks
    gives its bytes back, up to the first piece that is empty, and a listing gives back the
    image line by line: `Listing.lines` loses nothing, however long the image is and however
    often the addresses have gone around. -/

namespace Chip8

namespace Text

/-! ## Numbers in hexadecimal -/

/-- The text is the number in capital hexadecimal digits, with zeros in front only as far as
    they are needed for `w` digits. -/
structure Numeral (w n : Nat) (t : Text) : Prop where
  capitals : ∀ c ∈ t, c ∈ "0123456789ABCDEF".toList
  value : hexValue t = n
  width : w ≤ t.length
  unpadded : w < t.length → t.head? ≠ some '0'

/-- The first of some digits is the highest one. -/
theorem hexDigits_succ (w n : Nat) :
    hexDigits (w + 1) n = hexDigit (n / 16 ^ w % 16) :: hexDigits w n := by
  induction w generalizing n with
  | zero =>
      rw [Nat.pow_zero, Nat.div_one]
      rfl
  | succ w ih =>
      rw [hexDigits, ih, List.cons_append, Nat.div_div_eq_div_mul, ← Nat.pow_succ']
      rfl

theorem hexDigit_ne_zero {d : Nat} (h : d < 16) (hpos : 0 < d) : hexDigit d ≠ '0' := by
  intro hzero
  have hvalue := digitValue_hexDigit h
  rw [hzero] at hvalue
  have hnone : digitValue '0' = 0 := by decide
  omega

/-- A number with more digits than it was given room for has no zero in front. -/
theorem head_hex_ne_zero {w n : Nat} (hw : 0 < w) (h : w < (hex w n).length) :
    (hex w n).head? ≠ some '0' := by
  rw [hex, length_hexDigits] at h
  have hmax : max w (n.log2 / 4 + 1) = n.log2 / 4 + 1 := by omega
  have hne : n ≠ 0 := by
    intro hzero
    rw [hzero, Nat.log2_zero] at h
    omega
  -- four bits make a digit, so the highest bit lies in the first of them
  have hlow : 16 ^ (n.log2 / 4) ≤ n := by
    calc 16 ^ (n.log2 / 4) = 2 ^ (4 * (n.log2 / 4)) := by rw [Nat.pow_mul]
      _ ≤ 2 ^ n.log2 := Nat.pow_le_pow_right (by decide) (by omega)
      _ ≤ n := Nat.log2_self_le hne
  have hhigh : n < 16 ^ (n.log2 / 4) * 16 := by
    calc n < 2 ^ (n.log2 + 1) := Nat.lt_log2_self
      _ ≤ 2 ^ (4 * (n.log2 / 4 + 1)) := Nat.pow_le_pow_right (by decide) (by omega)
      _ = 16 ^ (n.log2 / 4) * 16 := by rw [Nat.pow_mul, ← Nat.pow_succ]
  have hdigit : n / 16 ^ (n.log2 / 4) < 16 := Nat.div_lt_of_lt_mul hhigh
  have hpos : 0 < n / 16 ^ (n.log2 / 4) := Nat.div_pos hlow (Nat.pow_pos (by decide))
  rw [hex, hmax, hexDigits_succ, Nat.mod_eq_of_lt hdigit, List.head?_cons]
  intro hzero
  exact hexDigit_ne_zero hdigit hpos (Option.some.inj hzero)

theorem numeral_hex {w : Nat} (hw : 0 < w) (n : Nat) : Numeral w n (hex w n) where
  capitals := by
    have hdigits : ∀ d ∈ List.range 16, hexDigit d ∈ "0123456789ABCDEF".toList := by decide
    intro c hc
    obtain ⟨d, hd, rfl⟩ := mem_hexDigits hc
    exact hdigits d (List.mem_range.mpr hd)
  value := hexValue_hex w n
  width := by
    rw [hex, length_hexDigits]
    exact Nat.le_max_left _ _
  unpadded := head_hex_ne_zero hw

theorem length_hex_of_lt {w n : Nat} (hw : 0 < w) (hn : n < 16 ^ w) : (hex w n).length = w := by
  rw [hex_of_lt hw hn, length_hexDigits]

end Text

namespace Listing

open Text

/-! ## Columns -/

/-- Bytes as they are listed. -/
def numbers (bytes : List Byte) : List Text := bytes.map fun b => hex 2 b.toNat

/-- The columns in front of the instruction: the address and the bytes. -/
def columns (a : Word) (bytes : List Byte) : Text := addressColumn a ++ join [' '] (numbers bytes)

theorem numerals_numbers (bytes : List Byte) :
    List.Forall₂ (fun b t => Numeral 2 b.toNat t ∧ t.length = 2) bytes (numbers bytes) := by
  rw [numbers, List.forall₂_map_right_iff, List.forall₂_same]
  intro b _
  exact ⟨numeral_hex (by decide) b.toNat, length_hex_of_lt (by decide) b.isLt⟩

theorem wordLine_eq_columns (a : Word) (hi lo : Byte) :
    wordLine a hi lo = columns a [hi, lo] ++ ' ' :: ' ' :: instructionColumn (bigEndian hi lo) := by
  simp [wordLine, columns, numbers, join]

theorem byteLine_eq_columns (a : Word) (b : Byte) :
    byteLine a b = columns a [b] ++ ' ' :: ' ' :: [' ', ' ', ' ', '?', '?', '?'] := by
  simp [byteLine, columns, numbers, join]

/-- Every line has the columns of its address and of its bytes, two unless only one is
    left. -/
theorem exists_columns {image : List Byte} {k : Nat} (hk : 2 * k < image.length) (a : Word) :
    ∃ rest, (linesFrom a image)[k]? =
      some (columns (a + BitVec.ofNat 16 (2 * k)) ((image.drop (2 * k)).take 2) ++
        ' ' :: ' ' :: rest) := by
  have hbytes : image.drop (2 * k) ≠ [] := by
    rw [Ne, List.drop_eq_nil_iff]
    omega
  rw [getElem?_linesFrom_eq_head?]
  match image.drop (2 * k), hbytes with
  | [b], _ =>
      rw [linesFrom, byteLine_eq_columns]
      exact ⟨[' ', ' ', ' ', '?', '?', '?'], rfl⟩
  | hi :: lo :: r, _ =>
      rw [linesFrom, wordLine_eq_columns]
      exact ⟨instructionColumn (bigEndian hi lo), rfl⟩

/-! ## Reading bytes back -/

/-- The bytes that a line shows: the numbers behind the address, up to a gap of two blanks. -/
def shownBytes (line : Text) : List Byte :=
  (((fields ' ' line).drop 1).takeWhile (· ≠ [])).map fun t => BitVec.ofNat 8 (hexValue t)

/-- What stands behind the columns does not matter. -/
theorem shownBytes_columns (a : Word) {bytes : List Byte} (hne : bytes ≠ []) (rest : Text) :
    shownBytes (columns a bytes ++ ' ' :: ' ' :: rest) = bytes := by
  have hblank : ∀ w n, ' ' ∉ hex w n := fun w n => (plain_hex w n).not_mem (by decide)
  have haddress : ' ' ∉ hex 3 a.toNat ++ [':'] := by simp [hblank]
  have hnumbers : ∀ t ∈ numbers bytes, ' ' ∉ t ∧ t ≠ [] := by
    intro t ht
    obtain ⟨b, -, rfl⟩ := List.mem_map.mp ht
    refine ⟨hblank 2 b.toNat, ?_⟩
    intro hnil
    have hlength := length_hex_of_lt (w := 2) (by decide) b.isLt
    rw [hnil] at hlength
    cases hlength
  have hcolumns : columns a bytes ++ ' ' :: ' ' :: rest = (hex 3 a.toNat ++ [':']) ++
      ' ' :: (join [' '] (numbers bytes) ++ ' ' :: ' ' :: rest) := by
    simp [columns, addressColumn]
  have hne' : numbers bytes ≠ [] := fun hnil => hne (List.map_eq_nil_iff.mp hnil)
  have hfields : fields ' ' (' ' :: rest) = [] :: fields ' ' rest := if_pos rfl
  rw [shownBytes, hcolumns, fields_append_cons _ haddress, fields_append,
    fields_join hne' fun t ht => (hnumbers t ht).1, hfields, List.drop_one, List.tail_cons,
    List.takeWhile_append_of_pos (fun t ht => decide_eq_true (hnumbers t ht).2),
    List.takeWhile_cons_of_neg (by simp), List.append_nil, numbers, List.map_map]
  refine (List.map_congr_left ?_).trans (List.map_id bytes)
  intro b _
  show BitVec.ofNat 8 (hexValue (hex 2 b.toNat)) = b
  rw [hexValue_hex, BitVec.ofNat_toNat, BitVec.setWidth_eq]

/-- Line by line, a listing gives back the image. -/
theorem flatMap_shownBytes (a : Word) (image : List Byte) :
    (linesFrom a image).flatMap shownBytes = image := by
  induction a, image using linesFrom.induct with
  | case1 a => rfl
  | case2 a b =>
      rw [linesFrom, byteLine_eq_columns, List.flatMap_singleton,
        shownBytes_columns a (List.cons_ne_nil b [])]
  | case3 a hi lo r ih =>
      rw [linesFrom, wordLine_eq_columns, List.flatMap_cons, ih,
        shownBytes_columns a (List.cons_ne_nil hi [lo])]
      rfl

/-- **NOTHING IS LOST**: the listing of every image, however long, has a line for every two
    bytes and one for a byte left over.  Line `k` begins with the address of its first byte
    around the end of 16 bits, in capital hexadecimal of three digits or more, then a colon
    and a blank and the one or two bytes of two digits each.  These bytes can be read back,
    and line by line they are the image; so different images have different listings. -/
theorem listing_lossless :
    (∀ image : List Byte,
      (lines image).length = (image.length + 1) / 2 ∧
      (∀ k < (image.length + 1) / 2, ∃ (address : Text) (shown : List Text) (rest : Text),
        (lines image)[k]? = some (address ++ [':', ' '] ++ join [' '] shown ++ ' ' :: rest) ∧
        Numeral 3 ((0x200 + 2 * k) % 65536) address ∧
        List.Forall₂ (fun b t => Numeral 2 b.toNat t ∧ t.length = 2)
          ((image.drop (2 * k)).take 2) shown) ∧
      (lines image).flatMap shownBytes = image) ∧
    ∀ image image' : List Byte, lines image = lines image' ↔ image = image' := by
  have hback : ∀ image, (lines image).flatMap shownBytes = image :=
    flatMap_shownBytes programStart
  refine ⟨?_, ?_⟩
  · intro image
    refine ⟨length_linesFrom programStart image, ?_, hback image⟩
    intro k hk
    have hbyte : 2 * k < image.length := by omega
    obtain ⟨rest, hline⟩ := exists_columns hbyte programStart
    have haddress : (programStart + BitVec.ofNat 16 (2 * k)).toNat = (0x200 + 2 * k) % 65536 := by
      rw [BitVec.toNat_add, BitVec.toNat_ofNat]
      show (0x200 + 2 * k % 2 ^ 16) % 2 ^ 16 = _
      omega
    refine ⟨hex 3 ((0x200 + 2 * k) % 65536), numbers ((image.drop (2 * k)).take 2), ' ' :: rest,
      ?_, numeral_hex (by decide) _, numerals_numbers _⟩
    rw [← haddress]
    exact hline
  · intro image image'
    constructor
    · intro h
      rw [← hback image, h, hback image']
    · intro h
      rw [h]

/-- A byte is left over; its line shows one number, and it is not the line of a word that
    ends with a zero byte. -/
theorem listing_lossless_left_over :
    let image : List Byte := [0x81, 0x23, 0x0A]
    1 < (image.length + 1) / 2 ∧
      (∃ address number rest,
        (lines image)[1]? = some (address ++ [':', ' '] ++ number ++ ' ' :: rest) ∧
        Numeral 3 0x202 address ∧ Numeral 2 0x0A number ∧ number.length = 2) ∧
      lines image ≠ lines [0x81, 0x23, 0x0A, 0x00] := by
  intro image
  have hk : 1 < (image.length + 1) / 2 := by decide
  obtain ⟨-, hlines, -⟩ := listing_lossless.1 image
  obtain ⟨address, shown, rest, hline, haddress, hshown⟩ := hlines 1 hk
  obtain ⟨number, hnumber, rfl⟩ : ∃ number, (Numeral 2 0x0A number ∧ number.length = 2) ∧
      shown = [number] := by
    obtain ⟨number, shown', hnumber, hnil, rfl⟩ := List.forall₂_cons_left_iff.mp hshown
    obtain rfl := List.forall₂_nil_left_iff.mp hnil
    exact ⟨number, hnumber, rfl⟩
  refine ⟨hk, ⟨address, number, rest, hline, haddress, hnumber⟩, ?_⟩
  rw [Ne, listing_lossless.2]
  decide

end Listing

end Chip8
