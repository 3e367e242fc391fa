import Chip8.Proofs.LetterCase
import Chip8.Proofs.Refusals
import Chip8.Proofs.Spelling

/-! # Canonical names — resolved once is resolved for good

    A mnemonic is looked up trimmed and in upper case, and a longer name gives way to the
    mnemonic's own.  What upper case makes of a character is never a small letter again, and
    no mnemonic's own name is one of the longer names, so a canonical name is its own
    canonical name.  The mnemonic, and with it the forms and the reading of the operands,
    depends on the canonical name alone: writing that instead changes nothing but the name
    that an error tells. -/

namespace Chip8

namespace Text

/-! ## Upper case of what is in upper case -/

/-- The small letters of ASCII. -/
def asciiRun : CaseRun := ⟨0x61, 0x7A, 1, 0x41⟩

/-- All runs of small letters. -/
def smallRuns : List CaseRun := asciiRun :: caseRuns

/-- The distances of the characters of a run from the first. -/
def CaseRun.places (r : CaseRun) : List Nat :=
  (List.range ((r.last - r.first) / r.step + 1)).map (r.step * ·)

/-- The code points that have an upper case of their own. -/
def smallCodes : List Nat :=
  (smallRuns.flatMap fun r => r.places.map (r.first + ·)) ++ caseExpansions.map Prod.fst

/-- The code points that upper case leads to. -/
def capitalCodes : List Nat :=
  (smallRuns.flatMap fun r => r.places.map (r.capital + ·)) ++ caseExpansions.flatMap Prod.snd

/-- Code points as the bits of a single number. -/
def asBits (codes : List Nat) : Nat := codes.foldr (fun n bits => 1 <<< n ||| bits) 0

theorem testBit_asBits {codes : List Nat} {n : Nat} :
    (asBits codes).testBit n = true ↔ n ∈ codes := by
  induction codes with
  | nil => simp [asBits]
  | cons c r ih =>
      show (1 <<< c ||| asBits r).testBit n = true ↔ n ∈ c :: r
      rw [Nat.testBit_or, Bool.or_eq_true, ih, Nat.one_shiftLeft, Nat.testBit_two_pow,
        decide_eq_true_eq, List.mem_cons, eq_comm]

/-- Upper case never leads to a small letter. -/
theorem not_small_of_capital {n : Nat} (hn : n ∈ capitalCodes) : n ∉ smallCodes := by
  -- one number against another, where pair by pair there would be two million to compare
  have hnone : asBits capitalCodes &&& asBits smallCodes = 0 := by decide +kernel
  intro hs
  have hbit := congrArg (·.testBit n) hnone
  simp [testBit_asBits.mpr hn, testBit_asBits.mpr hs] at hbit

section Run

variable {r : CaseRun} (hr : r ∈ smallRuns) {n : Nat} (hn : r.holds n = true)
include hn

theorem CaseRun.place_of_holds : r.first ≤ n ∧ n - r.first ∈ r.places := by
  simp only [holds, Bool.and_eq_true, decide_eq_true_eq, beq_iff_eq] at hn
  obtain ⟨⟨hfirst, hlast⟩, hstep⟩ := hn
  refine ⟨hfirst, List.mem_map.mpr ⟨(n - r.first) / r.step, ?_, ?_⟩⟩
  · rw [List.mem_range, Nat.lt_succ_iff]
    exact Nat.div_le_div_right (Nat.sub_le_sub_right hlast r.first)
  · exact Nat.mul_div_cancel' (Nat.dvd_of_mod_eq_zero hstep)

include hr

theorem mem_smallCodes_of_holds : n ∈ smallCodes := by
  obtain ⟨hfirst, hplace⟩ := CaseRun.place_of_holds hn
  refine List.mem_append_left _ (List.mem_flatMap.mpr ⟨r, hr, List.mem_map.mpr ⟨_, hplace, ?_⟩⟩)
  exact Nat.add_sub_cancel' hfirst

theorem image_mem_capitalCodes : r.image n ∈ capitalCodes := by
  obtain ⟨-, hplace⟩ := CaseRun.place_of_holds hn
  exact List.mem_append_left _ (List.mem_flatMap.mpr ⟨r, hr, List.mem_map.mpr ⟨_, hplace, rfl⟩⟩)

end Run

/-- In ASCII, exactly the small letters are raised, each to its capital. -/
theorem toUpper_ascii {c : Char} (h : c.toNat < 0x80) :
    c.toUpper = if asciiRun.holds c.toNat then Char.ofNat (asciiRun.image c.toNat) else c := by
  have all : ∀ n ∈ List.range 0x80, (Char.ofNat n).toUpper =
      if asciiRun.holds n then Char.ofNat (asciiRun.image n) else Char.ofNat n := by
    decide +kernel
  have hc := all c.toNat (List.mem_range.mpr h)
  rwa [Char.ofNat_toNat] at hc

/-- What is no small letter has no upper case but itself. -/
theorem upperChar_of_not_small {c : Char} (h : c.toNat ∉ smallCodes) : upperChar c = [c] := by
  have hruns : ∀ r ∈ smallRuns, ¬ r.holds c.toNat = true :=
    fun r hr hholds => h (mem_smallCodes_of_holds hr hholds)
  rw [upperChar]
  split
  · rename_i hascii
    rw [toUpper_ascii hascii, if_neg (hruns _ List.mem_cons_self)]
  · have hexpansions : caseExpansions.lookup c.toNat = none := by
      cases hlookup : caseExpansions.lookup c.toNat with
      | none => rfl
      | some images =>
          have hmem := List.mem_map_of_mem (f := Prod.fst) (mem_of_lookup hlookup)
          exact absurd (List.mem_append_right _ hmem) h
    have hnone : caseRuns.find? (CaseRun.holds · c.toNat) = none :=
      List.find?_eq_none.mpr fun r hr => hruns r (List.mem_cons_of_mem _ hr)
    simp only [upperBeyondAscii, hexpansions, hnone]

/-- A capital has no upper case but itself. -/
theorem upperChar_ofNat_of_capital {n : Nat} (h : n ∈ capitalCodes) :
    upperChar (Char.ofNat n) = [Char.ofNat n] := by
  by_cases hvalid : n.isValidChar
  · refine upperChar_of_not_small ?_
    have hn : (Char.ofNat n).toNat = n := by
      rw [Char.ofNat, dif_pos hvalid]
      rfl
    rw [hn]
    exact not_small_of_capital h
  -- numbers that are no code points stand for the null character
  · rw [Char.ofNat, dif_neg hvalid]
    rfl

/-- What upper case makes of a character has no upper case but itself. -/
theorem upperChar_of_mem_upperChar {c d : Char} (h : d ∈ upperChar c) : upperChar d = [d] := by
  by_cases hascii : c.toNat < 0x80
  · rw [upperChar, if_pos hascii, toUpper_ascii hascii, List.mem_singleton] at h
    subst h
    split
    · rename_i hsmall
      exact upperChar_ofNat_of_capital (image_mem_capitalCodes List.mem_cons_self hsmall)
    · rename_i hsmall
      rw [upperChar, if_pos hascii, toUpper_ascii hascii, if_neg hsmall]
  rw [upperChar, if_neg hascii, upperBeyondAscii] at h
  split at h
  · rename_i images hlookup
    obtain ⟨n, hn, rfl⟩ := List.mem_map.mp h
    refine upperChar_ofNat_of_capital (List.mem_append_right _ ?_)
    exact List.mem_flatMap.mpr ⟨_, mem_of_lookup hlookup, hn⟩
  · split at h
    · rename_i hlookup run hrun
      obtain rfl := List.mem_singleton.mp h
      have hholds : run.holds c.toNat = true :=
        @List.find?_some _ (CaseRun.holds · c.toNat) run caseRuns hrun
      exact upperChar_ofNat_of_capital
        (image_mem_capitalCodes (List.mem_cons_of_mem _ (run_of_find? hrun).1) hholds)
    · rename_i hlookup _ hrun
      obtain rfl := List.mem_singleton.mp h
      rw [upperChar, if_neg hascii, upperBeyondAscii, hlookup, hrun]

theorem upper_eq_self {t : Text} (h : ∀ c ∈ t, upperChar c = [c]) : upper t = t := by
  induction t with
  | nil => rfl
  | cons c r ih =>
      obtain ⟨hc, hr⟩ := List.forall_mem_cons.mp h
      rw [upper_cons, hc, ih hr, List.singleton_append]

/-- A text in upper case has no other upper case. -/
theorem upper_upper (t : Text) : upper (upper t) = upper t := by
  refine upper_eq_self ?_
  intro d hd
  obtain ⟨c, -, hc⟩ := List.mem_flatMap.mp hd
  exact upperChar_of_mem_upperChar hc

end Text

/-! ## Names -/

namespace Mnemonic

open Text

/-- A canonical name is trimmed and in upper case. -/
theorem upper_trim_canonical (t : Text) : upper (trim (canonical t)) = canonical t := by
  simp only [canonical]
  split
  · rename_i m _
    rw [m.plain_name.trimmed.trim_eq, m.plain_name.upper]
  · rw [trim_upper, trim_trim, upper_upper]

/-- Resolving a name twice is resolving it once. -/
theorem canonical_canonical (t : Text) : canonical (canonical t) = canonical t := by
  cases hlookup : aliases.lookup (upper (trim t)) with
  | some m =>
      have hname : canonical t = m.name := by simp only [canonical, hlookup]
      rw [hname, canonical_name]
  | none =>
      have hname : canonical t = upper (trim t) := by simp only [canonical, hlookup]
      have hagain := upper_trim_canonical t
      rw [hname] at hagain ⊢
      simp only [canonical, hagain, hlookup]

end Mnemonic

/-! ## Statements -/

/-- The error with another mnemonic in it, if it tells one. -/
def StatementError.named (name : Text) : StatementError → StatementError
  | .unknownInstruction _ => .unknownInstruction name
  | .invalidOperands _ ts => .invalidOperands name ts
  | e                     => e

namespace Statement

open Token

theorem named_of_namesToken {e : StatementError} (h : NamesToken e) (name : Text) :
    e.named name = e := by
  cases e with
  | invalidRegister t => rfl
  | invalidValue t => rfl
  | invalidNibble t => rfl
  | _ => exact h.elim

section Canonical

variable {mnemonic : Text} {operands : List Text} {m : Mnemonic}
  (hm : Mnemonic.ofName? (Mnemonic.canonical mnemonic) = some m)
include hm

theorem ofName?_canonical_canonical :
    Mnemonic.ofName? (Mnemonic.canonical (Mnemonic.canonical mnemonic)) = some m := by
  rw [Mnemonic.canonical_canonical, hm]

variable {f : Form} (hf : f ∈ forms m) (hs : f.shapes = (operands.map ofOperand).map shape)
include hf hs

/-- Where the operands have the shapes of a form, the form alone decides. -/
theorem encode_canonical_of_form :
    encode (Mnemonic.canonical mnemonic) operands = encode mnemonic operands := by
  have hwritten := instruction_of_form hm hf hs
  have hcanonical := instruction_of_form (ofName?_canonical_canonical hm) hf hs
  rw [encode_eq_map, encode_eq_map, Option.some.inj (hcanonical.symm.trans hwritten)]

/-- The errors of a form tell no mnemonic but the canonical name. -/
theorem named_of_encode_form {e : StatementError} (h : encode mnemonic operands = .error e) :
    e.named (Mnemonic.canonical mnemonic) = e := by
  cases encode_eq_error_iff.mp h with
  | unknown hnone => cases hnone.symm.trans hm
  | shapes hm' hnone =>
      obtain rfl := Option.some.inj (hm.symm.trans hm')
      exact absurd hs (hnone f hf)
  | stray hjump _ => rw [StatementError.named, Mnemonic.name_of_ofName? hjump]
  | operand _ _ _ _ hrefusal => exact named_of_namesToken (namesToken_of_firstRefusal? hrefusal) _

end Canonical

/-- **CANONICAL NAMES**: the canonical name of every text is its own canonical name, and a
    statement that is written with it instead has the same word, or is refused with the same
    error but for the mnemonic in it, which is then the canonical name. -/
theorem canonical_names_suffice (mnemonic : Text) :
    let name := Mnemonic.canonical mnemonic
    Mnemonic.canonical name = name ∧
    ∀ operands : List Text,
      (∃ w, encode mnemonic operands = .ok w ∧ encode name operands = .ok w) ∨
      ∃ e, encode mnemonic operands = .error e ∧ encode name operands = .error (e.named name) := by
  intro name
  refine ⟨Mnemonic.canonical_canonical mnemonic, ?_⟩
  intro operands
  have hwritten : Text.upper (Text.trim name) = name := Mnemonic.upper_trim_canonical mnemonic
  cases hm : Mnemonic.ofName? name with
  | none =>
      have hname : Mnemonic.ofName? (Mnemonic.canonical name) = none := by
        rw [Mnemonic.canonical_canonical, hm]
      refine Or.inr ⟨_, encode_eq_error_iff.mpr (.unknown hm), ?_⟩
      rw [encode_eq_error_iff.mpr (.unknown hname), hwritten]
      rfl
  | some m =>
      by_cases hform : ∃ f ∈ forms m, f.shapes = (operands.map ofOperand).map shape
      · obtain ⟨f, hf, hs⟩ := hform
        rw [encode_canonical_of_form hm hf hs]
        cases hencode : encode mnemonic operands with
        | ok w => exact Or.inl ⟨w, rfl, rfl⟩
        | error e => exact Or.inr ⟨e, rfl, by rw [named_of_encode_form hm hf hs hencode]⟩
      · have hnone : ∀ f ∈ forms m, f.shapes ≠ (operands.map ofOperand).map shape :=
          fun f hf hs => hform ⟨f, hf, hs⟩
        refine Or.inr ⟨_, encode_eq_error_iff.mpr (.shapes hm hnone), ?_⟩
        rw [encode_eq_error_iff.mpr (.shapes (ofName?_canonical_canonical hm) hnone), hwritten]
        rfl

end Statement

end Chip8
