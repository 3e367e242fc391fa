import Chip8.Text

/-! # Blanks — white space, and texts without it at the ends

    A blank is a character with the White_Space property of the Unicode standard:
    the separators and the controls that act as separators.  Zero-width
    characters are no blanks. -/

namespace Chip8.Text

/-- White_Space, by code point. -/
def isBlank (c : Char) : Bool :=
  let n := c.toNat
  (9 ≤ n && n ≤ 13) || n == 0x20 || n == 0x85 || n == 0xA0 || n == 0x1680 ||
  (0x2000 ≤ n && n ≤ 0x200A) || n == 0x2028 || n == 0x2029 || n == 0x202F ||
  n == 0x205F || n == 0x3000

/-- The text without the blanks that lead it. -/
def trimStart (t : Text) : Text := t.dropWhile isBlank

/-- The text without the blanks that end it. -/
def trimEnd (t : Text) : Text := (t.reverse.dropWhile isBlank).reverse

/-- The text without the blanks around it. -/
def trim (t : Text) : Text := trimEnd (trimStart t)

/-- Every character that the core library calls white space is a blank. -/
theorem isBlank_of_isWhitespace {c : Char} (h : c.isWhitespace = true) : isBlank c = true := by
  simp only [Char.isWhitespace, Bool.or_eq_true, decide_eq_true_eq] at h
  rcases h with ((h | h) | h) | h <;> subst h <;> decide

/-- The text up to the first blank. -/
def firstWord (t : Text) : Text := t.takeWhile (fun c => !isBlank c)

/-- The text from the first blank on. -/
def afterFirstWord (t : Text) : Text := t.dropWhile (fun c => !isBlank c)

/-- A text that neither begins nor ends with a blank. -/
structure Trimmed (t : Text) : Prop where
  first : ∀ c ∈ t.head?, isBlank c = false
  last : ∀ c ∈ t.getLast?, isBlank c = false

/-- Trimming leaves such a text alone. -/
theorem Trimmed.trim_eq {t : Text} (h : Trimmed t) : trim t = t := by
  have hstart : trimStart t = t := by
    cases t with
    | nil => rfl
    | cons c r => exact List.dropWhile_cons_of_neg (by simp [h.first c rfl])
  rw [trim, hstart, trimEnd]
  cases hr : t.reverse with
  | nil => exact (List.reverse_eq_nil_iff.mp hr).symm
  | cons c r =>
      have hc : c ∈ t.getLast? := by simp [List.getLast?_eq_head?_reverse, hr]
      rw [List.dropWhile_cons_of_neg (by simp [h.last c hc]), ← hr, List.reverse_reverse]

/-- What stands between two trimmed texts does not matter. -/
theorem Trimmed.append {s t : Text} (hs : Trimmed s) (ht : Trimmed t) (hsne : s ≠ [])
    (htne : t ≠ []) (between : Text) : Trimmed (s ++ between ++ t) := by
  refine ⟨fun c hc => ?_, fun c hc => ?_⟩
  · refine hs.first c ?_
    rw [List.append_assoc, List.head?_append] at hc
    cases s with
    | nil => exact absurd rfl hsne
    | cons d r => exact hc
  · refine ht.last c ?_
    rw [List.getLast?_append] at hc
    cases hl : t.getLast? with
    | none => exact absurd (List.getLast?_eq_none_iff.mp hl) htne
    | some d =>
        rw [hl] at hc
        exact hc

/-- A blank in front is trimmed. -/
theorem trim_cons_of_isBlank {c : Char} (h : isBlank c = true) (t : Text) :
    trim (c :: t) = trim t := by
  rw [trim, trimStart, List.dropWhile_cons_of_pos h, ← trimStart, ← trim]

/-- Blanks in front are trimmed. -/
theorem trimStart_append_blanks {s : Text} (h : ∀ c ∈ s, isBlank c = true) (t : Text) :
    trimStart (s ++ t) = trimStart t :=
  List.dropWhile_append_of_pos h

/-- Blanks at the end are trimmed. -/
theorem trimEnd_append_blanks {s : Text} (h : ∀ c ∈ s, isBlank c = true) (t : Text) :
    trimEnd (t ++ s) = trimEnd t := by
  rw [trimEnd, List.reverse_append,
    List.dropWhile_append_of_pos fun c hc => h c (List.mem_reverse.mp hc), ← trimEnd]

theorem firstWord_append_afterFirstWord (t : Text) : firstWord t ++ afterFirstWord t = t :=
  List.takeWhile_append_dropWhile

/-- A word without blanks ends at the blank behind it. -/
theorem firstWord_append_cons {w : Text} (hw : ∀ c ∈ w, isBlank c = false) {b : Char}
    (hb : isBlank b = true) (r : Text) : firstWord (w ++ b :: r) = w := by
  rw [firstWord, List.takeWhile_append_of_pos (by simpa using hw),
    List.takeWhile_cons_of_neg (by simp [hb]), List.append_nil]

theorem afterFirstWord_append_cons {w : Text} (hw : ∀ c ∈ w, isBlank c = false) {b : Char}
    (hb : isBlank b = true) (r : Text) : afterFirstWord (w ++ b :: r) = b :: r := by
  rw [afterFirstWord, List.dropWhile_append_of_pos (by simpa using hw),
    List.dropWhile_cons_of_neg (by simp [hb])]

end Chip8.Text
