import Chip8.Proofs.RoundTrip

/-! # Listed words — what a listing shows is what the machine fetches

    A listing pairs the bytes of an image up, and a machine reads two cells of the memory
    that the image was loaded into.  Both come to the same word.  And since no other
    instruction is written as one in range is, the end of a line tells what is fetched,
    or with question marks that nothing is. -/

namespace Chip8

/-! ## Other instructions are written otherwise -/

namespace Operand

theorem number_inj {w w' n n' : Nat} (h : number w n = number w' n') : n = n' := by
  have hdigits : Text.hex w n = Text.hex w' n' := (List.cons.inj (List.cons.inj h).2).2
  rw [← Text.hexValue_hex w n, hdigits, Text.hexValue_hex]

/-- An operand that is written like one in range is in range itself, unless it is a row
    count and the other is not. -/
theorem inRange_of_text_eq {o o' : Operand} (h : o.text = o'.text) (hrange : o'.InRange)
    (hdigit : ∀ n, o = digit n → ∃ n', o' = digit n') : o.InRange := by
  cases o with
  | reg x =>
      cases o' with
      | reg x' =>
          have hdigits : Text.hex 1 x.toNat = Text.hex 1 x'.toNat := (List.cons.inj h).2
          show x.toNat < 16
          rw [← Text.hexValue_hex 1 x.toNat, hdigits, Text.hexValue_hex]
          exact hrange
      | _ => cases (List.cons.inj h).1
  | digit n =>
      obtain ⟨n', rfl⟩ := hdigit n rfl
      show n.toNat < 16
      rw [number_inj h]
      exact hrange
  | addr a =>
      show a.toNat < 4096
      cases o' with
      | addr a' =>
          rw [number_inj h]
          exact hrange
      | byte k =>
          rw [number_inj h]
          omega
      | digit n =>
          rw [number_inj h]
          omega
      | _ => cases (List.cons.inj h).1
  | _ => trivial

/-- No operand is written as the name of a mnemonic. -/
theorem text_ne_name (o : Operand) (m : Mnemonic) : o.text ≠ m.name := by
  have hnames : ∀ m : Mnemonic, m.name.head? ≠ some 'V' ∧ m.name.head? ≠ some '0' := by
    intro m
    cases m <;> decide
  intro h
  obtain ⟨hregister, hnumber⟩ := hnames m
  rw [← h] at hregister hnumber
  cases o with
  | reg x => exact hregister rfl
  | byte k => exact hnumber rfl
  | digit n => exact hnumber rfl
  | addr a => exact hnumber rfl
  | _ =>
      revert h
      cases m <;> decide

end Operand

namespace Instruction

/-- Only a draw has the mnemonic of a draw. -/
theorem eq_draw_of_mnemonic {i : Instruction} (h : i.mnemonic = .drw) :
    ∃ x y n, i = .draw x y n := by
  cases i with
  | draw x y n => exact ⟨x, y, n, rfl⟩
  | skip t => cases t <;> cases h
  | arith op x y => cases op <;> cases h
  | shift d x => cases d <;> cases h
  | _ => cases h

/-- Only a draw has a row count. -/
theorem eq_draw_of_digit {i : Instruction} {n : Byte} (h : .digit n ∈ i.operands) :
    ∃ x y, i = .draw x y n := by
  cases i with
  | draw x y n' =>
      simp only [operands, List.mem_cons, List.not_mem_nil, or_false, reduceCtorEq, false_or,
        Operand.digit.injEq] at h
      exact ⟨x, y, by rw [h]⟩
  | skip t => cases t <;> simp [operands, Test.operands] at h
  | _ => simp [operands] at h

theorem parts_of_text_eq {i j : Instruction} (h : i.text = j.text) :
    i.mnemonic = j.mnemonic ∧ i.operands.map Operand.text = j.operands.map Operand.text := by
  have hsplit := congrArg Source.splitLine h
  rw [text, text, splitLine_statementText, splitLine_statementText, Prod.mk.injEq] at hsplit
  refine ⟨?_, hsplit.2⟩
  have hname := congrArg Mnemonic.ofName? hsplit.1
  rwa [Mnemonic.ofName?_name, Mnemonic.ofName?_name, Option.some.injEq] at hname

/-- An instruction that is written like one in range is in range. -/
theorem inRange_of_text_eq {i j : Instruction} (hj : j.InRange) (h : i.text = j.text) :
    i.InRange := by
  obtain ⟨hmnemonic, hoperands⟩ := parts_of_text_eq h
  intro o ho
  by_cases hdigit : ∃ n, o = .digit n
  -- the row count of a draw is written as that of the other draw
  · obtain ⟨n, rfl⟩ := hdigit
    obtain ⟨x, y, rfl⟩ := eq_draw_of_digit ho
    obtain ⟨x', y', n', rfl⟩ := eq_draw_of_mnemonic hmnemonic.symm
    have hrows : (Operand.digit n).text = (Operand.digit n').text := by
      simp only [operands, List.map_cons, List.cons.injEq] at hoperands
      exact hoperands.2.2.1
    exact Operand.inRange_of_text_eq hrows (hj _ (by simp [operands])) fun _ _ => ⟨n', rfl⟩
  · have hmem : o.text ∈ j.operands.map Operand.text :=
      hoperands ▸ List.mem_map_of_mem ho
    obtain ⟨o', ho', htext⟩ := List.mem_map.mp hmem
    exact Operand.inRange_of_text_eq htext.symm (hj o' ho')
      fun n hn => absurd ⟨n, hn⟩ hdigit

/-- An instruction that is written like one in range is that one. -/
theorem eq_of_text_eq {i j : Instruction} (hj : j.InRange) (h : i.text = j.text) : i = j := by
  obtain ⟨hmnemonic, hoperands⟩ := parts_of_text_eq h
  have hread := instruction_text (inRange_of_text_eq hj h)
  rw [hmnemonic, hoperands, instruction_text hj] at hread
  exact (Except.ok.inj hread).symm

end Instruction

/-! ## Texts between blanks -/

namespace Text

/-- Cut at the blanks, a list of operands falls into the operands, with the commas at
    their ends. -/
theorem mem_fields_join {ts : List Text} (hne : ts ≠ []) (h : ∀ t ∈ ts, ' ' ∉ t) {f : Text}
    (hf : f ∈ fields ' ' (join [',', ' '] ts)) : ∃ t ∈ ts, f = t ∨ f = t ++ [','] := by
  induction ts with
  | nil => exact absurd rfl hne
  | cons t r ih =>
      have ht : ' ' ∉ t := h t (by simp)
      cases r with
      | nil =>
          rw [join, fields_of_not_mem ht] at hf
          exact ⟨t, by simp, .inl (List.mem_singleton.mp hf)⟩
      | cons u r =>
          have hjoin : join [',', ' '] (t :: u :: r) =
              (t ++ [',']) ++ ' ' :: join [',', ' '] (u :: r) := by simp [join]
          rw [hjoin, fields_append_cons _ (by simp [ht])] at hf
          rcases List.mem_cons.mp hf with rfl | hrest
          · exact ⟨t, by simp, .inr rfl⟩
          · obtain ⟨v, hv, hfv⟩ := ih (by simp) (fun v hv => h v (by simp [hv])) hrest
            exact ⟨v, by simp [hv], hfv⟩

end Text

namespace Instruction

/-- Cut at the blanks, an instruction falls into the name of its mnemonic and pieces that
    are neither empty nor such a name. -/
theorem exists_fields_text (i : Instruction) :
    ∃ pieces, Text.fields ' ' i.text = i.mnemonic.name :: pieces ∧
      ∀ f ∈ pieces, f ≠ [] ∧ ∀ m : Mnemonic, f ≠ m.name := by
  have hname : ' ' ∉ i.mnemonic.name := i.mnemonic.plain_name.not_mem (by decide)
  rw [text]
  cases i.operands with
  | nil => exact ⟨[], Text.fields_of_not_mem hname, List.forall_mem_nil _⟩
  | cons o r =>
      refine ⟨_, Text.fields_append_cons _ hname, fun f hf => ?_⟩
      have hblank : ∀ t ∈ (o :: r).map Operand.text, ' ' ∉ t := by
        intro t ht
        obtain ⟨o', -, rfl⟩ := List.mem_map.mp ht
        exact o'.plain_text.not_mem (by decide)
      obtain ⟨t, ht, hft⟩ := Text.mem_fields_join (by simp) hblank hf
      obtain ⟨o', -, rfl⟩ := List.mem_map.mp ht
      rcases hft with rfl | rfl
      · exact ⟨o'.text_ne_nil, o'.text_ne_name⟩
      -- no name has a comma
      · refine ⟨by simp, fun m hm => ?_⟩
        have hcomma : ',' ∉ m.name := m.plain_name.not_mem (by decide)
        rw [← hm] at hcomma
        exact hcomma (by simp)

/-- If the pieces of an instruction end as those of another do, and what is in front ends
    with an empty piece, then they are the pieces of the other. -/
theorem fields_text_eq {front before : List Text} {i j : Instruction}
    (h : before ++ Text.fields ' ' i.text = (front ++ [[]]) ++ Text.fields ' ' j.text) :
    Text.fields ' ' i.text = Text.fields ' ' j.text := by
  obtain ⟨pieces, hi, hpieces⟩ := i.exists_fields_text
  obtain ⟨pieces', hj, hpieces'⟩ := j.exists_fields_text
  rcases List.append_eq_append_iff.mp h with ⟨more, hfront, hmore⟩ | ⟨more, -, hmore⟩
  · cases more with
    | nil => exact hmore
    | cons f r =>
        -- the empty piece would be one of the instruction
        have hlast : (f :: r).getLast (List.cons_ne_nil f r) = [] := by
          have hends := congrArg List.getLast? hfront
          simpa [List.getLast?_append, List.getLast?_eq_some_getLast] using hends.symm
        have hempty : [] ∈ Text.fields ' ' i.text := by
          rw [hmore, ← hlast]
          exact List.mem_append_left _ (List.getLast_mem _)
        rw [hi] at hempty
        rcases List.mem_cons.mp hempty with hname | hpiece
        · exact absurd hname.symm i.mnemonic.name_ne_nil
        · exact absurd rfl (hpieces [] hpiece).1
  · cases more with
    | nil => exact hmore.symm
    | cons f r =>
        -- the name would be a piece behind the name of the other
        rw [hi, hj] at hmore
        have hname : i.mnemonic.name ∈ pieces' := by
          rw [(List.cons.inj hmore).2]
          simp
        exact absurd rfl ((hpieces' _ hname).2 i.mnemonic)

/-- Where a line has two blanks and an instruction at its end, the text of an instruction
    with a blank in front ends the line just if it is the text of that one.  The blank
    matters: the letters of an `OR` end those of an `XOR`. -/
theorem suffix_line_iff (front : Text) (i j : Instruction) :
    ' ' :: i.text <:+ front ++ ' ' :: ' ' :: j.text ↔ i.text = j.text := by
  refine ⟨?_, fun h => ?_⟩
  · rintro ⟨before, hline⟩
    have hcut := congrArg (Text.fields ' ') hline
    have hblanks : Text.fields ' ' (front ++ ' ' :: ' ' :: j.text) =
        (Text.fields ' ' front ++ [[]]) ++ Text.fields ' ' j.text := by
      rw [Text.fields_append, List.append_assoc]
      rfl
    rw [Text.fields_append, hblanks] at hcut
    rw [← Text.join_fields ' ' i.text, fields_text_eq hcut, Text.join_fields]
  · rw [h]
    exact ⟨front ++ [' '], by simp⟩

end Instruction

/-! ## Lines -/

namespace Listing

/-- What stands in front of the line of a word: its address and its bytes. -/
def byteColumns (a : Nat) (w : Word) : Text :=
  Text.hexDigits 3 a ++ ':' :: ' ' :: Text.hexDigits 2 (highByte w).toNat ++
    ' ' :: Text.hexDigits 2 (lowByte w).toNat

theorem wordLine_eq {a : Word} (ha : a.toNat < 4096) (hi lo : Byte) :
    wordLine a hi lo = byteColumns a.toNat (bigEndian hi lo) ++
      ' ' :: ' ' :: instructionColumn (bigEndian hi lo) := by
  rw [wordLine, addressColumn, byteColumns, highByte_bigEndian, lowByte_bigEndian,
    Text.hex_of_lt (by decide) ha, Text.hex_of_lt (by decide) hi.isLt,
    Text.hex_of_lt (by decide) lo.isLt]
  simp

/-- Line `k` is that of bytes `2 * k` and `2 * k + 1`. -/
theorem getElem?_linesFrom {image : List Byte} {k : Nat} (hk : 2 * k + 1 < image.length)
    (a : Word) :
    (linesFrom a image)[k]? =
      some (wordLine (a + BitVec.ofNat 16 (2 * k)) image[2 * k] image[2 * k + 1]) := by
  have hbytes : image.drop (2 * k) = image[2 * k] :: image[2 * k + 1] :: image.drop (2 * k + 2) := by
    rw [List.drop_eq_getElem_cons (by omega), List.drop_eq_getElem_cons hk]
  rw [getElem?_linesFrom_eq_head?, hbytes, linesFrom, List.head?_cons]

/-- An end of a line holds the last character of the line. -/
theorem last_mem_of_suffix {t line : Text} {c : Char} (h : t <:+ line) (hne : t ≠ [])
    (hlast : line.getLast? = some c) : c ∈ t := by
  obtain ⟨s, rfl⟩ := h
  rw [List.getLast?_append, List.getLast?_eq_some_getLast hne, Option.some_or] at hlast
  rw [← Option.some.inj hlast]
  exact List.getLast_mem hne

/-- No text of an instruction ends a line that ends in a question mark. -/
theorem not_suffix_of_mark {line : Text} (hlast : line.getLast? = some '?') (i : Instruction) :
    ¬ i.text <:+ line :=
  fun h => i.not_mem_text.2 (last_mem_of_suffix h (statementText_ne_nil _ _) hlast)

/-- The line of a word ends in the text of an instruction, with a blank in front, just if
    the word stands for that instruction. -/
theorem text_suffix_iff (front : Text) (w : Word) (i : Instruction) :
    ' ' :: i.text <:+ front ++ ' ' :: ' ' :: instructionColumn w ↔
      Instruction.decode w = some i := by
  rw [instructionColumn]
  cases hd : Instruction.decode w with
  | none =>
      refine ⟨fun h => ?_, fun h => by cases h⟩
      have hlast : (front ++ ' ' :: ' ' :: ['?', '?', '?']).getLast? = some '?' := by simp
      exact absurd ((List.suffix_cons ' ' i.text).trans h) (not_suffix_of_mark hlast i)
  | some j =>
      rw [Instruction.suffix_line_iff, Option.some.injEq]
      refine ⟨fun h => ?_, fun h => by rw [h]⟩
      exact (Instruction.eq_of_text_eq (Instruction.inRange_of_decode hd) h).symm

/-- The line of a word ends in question marks just if the word stands for nothing. -/
theorem marks_suffix_iff (front : Text) (w : Word) :
    ['?', '?', '?'] <:+ front ++ ' ' :: ' ' :: instructionColumn w ↔
      Instruction.decode w = none := by
  rw [instructionColumn]
  cases hd : Instruction.decode w with
  | none => exact iff_of_true ⟨front ++ [' ', ' '], by simp⟩ rfl
  | some j =>
      refine ⟨fun h => ?_, fun h => by cases h⟩
      obtain ⟨before, hline⟩ := h
      have hlast : (front ++ ' ' :: ' ' :: j.text).getLast? = some '?' := by
        rw [← hline]
        simp
      exact absurd ⟨front ++ [' ', ' '], by simp⟩ (not_suffix_of_mark hlast j)

end Listing

/-! ## Fetching -/

namespace Machine

theorem fetch_ok_iff {m : Machine} (heven : m.registers.pc.toNat % 2 = 0) (w : Word)
    (i : Instruction) :
    m.fetch = .ok (w, i) ↔ w = m.word ∧ Instruction.decode m.word = some i := by
  rw [fetch_of_even heven]
  cases Instruction.decode m.word with
  | none => simp
  | some j => simp [eq_comm]

theorem fetch_error_iff {m : Machine} (heven : m.registers.pc.toNat % 2 = 0) (f : Fault) :
    m.fetch = .error f ↔
      f = .unknownOpcode m.word m.registers.pc ∧ Instruction.decode m.word = none := by
  rw [fetch_of_even heven]
  cases Instruction.decode m.word with
  | none => simp [eq_comm]
  | some j => simp

/-- **FETCHED AS LISTED**: an image that fits is loaded, and as long as the memory is as it
    was loaded, with the program counter at word `k` line `k` of the listing begins with
    the address and the two bytes of the word that is there.  The machine fetches that
    word and an instruction just if the line ends in the text of the instruction behind a
    blank, and finds the word unknown just if the line ends in question marks. -/
theorem fetched_as_listed {image : List Byte} (hfits : image.length ≤ 3584)
    (source : RandomSource) (keypad : Keypad) (config : Config) :
    ∃ m, load source image keypad config = .ok m ∧
      ∀ (now : Machine) (k : Nat), now.memory = m.memory → k < image.length / 2 →
        now.registers.pc.toNat = 0x200 + 2 * k →
        ∃ line, (Listing.lines image)[k]? = some line ∧
          Listing.byteColumns (0x200 + 2 * k) now.word <+: line ∧
          (∀ w i, now.fetch = .ok (w, i) ↔ w = now.word ∧ ' ' :: i.text <:+ line) ∧
          (∀ f, now.fetch = .error f ↔
            f = .unknownOpcode now.word now.registers.pc ∧ ['?', '?', '?'] <:+ line) := by
  obtain ⟨m, hload, -, hcode⟩ := exists_load_image hfits source keypad config
  refine ⟨m, hload, fun now k hmemory hk hpc => ?_⟩
  have hbytes : 2 * k + 1 < image.length := by omega
  have heven : now.registers.pc.toNat % 2 = 0 := by omega
  have haddress : now.registers.pc = BitVec.ofNat 16 (0x200 + 2 * k) := by
    apply BitVec.eq_of_toNat_eq
    rw [hpc, BitVec.toNat_ofNat]
    omega
  have hword : now.word = bigEndian image[2 * k] image[2 * k + 1] := by
    rw [word, hmemory, haddress]
    exact hcode.readWord hbytes (by omega)
  have hplace : programStart + BitVec.ofNat 16 (2 * k) = now.registers.pc := by
    rw [haddress, BitVec.ofNat_add]
    rfl
  have hline := Listing.getElem?_linesFrom hbytes programStart
  rw [hplace, Listing.wordLine_eq (by omega), ← hword, hpc] at hline
  refine ⟨_, hline, List.prefix_append _ _, fun w i => ?_, fun f => ?_⟩
  · rw [fetch_ok_iff heven, Listing.text_suffix_iff]
  · rw [fetch_error_iff heven, Listing.marks_suffix_iff]

/-- An exclusive or, a word that stands for nothing, and a byte left over. -/
theorem fetched_as_listed_unknown :
    let image : List Byte := [0x81, 0x23, 0xFF, 0xFF, 0x00]
    Listing.lines image = ["200: 81 23  XOR V1, V2".toList, "202: FF FF  ???".toList,
      "204: 00     ???".toList] ∧
    image.length ≤ 3584 ∧
    ∃ m, load (Keystream.source 0) image .absent .standard = .ok m ∧
      m.fetch = .ok (m.word, .arith .xor 1 2) ∧
      (m.goTo 0x202).fetch = .error (.unknownOpcode (m.goTo 0x202).word 0x202) := by
  intro image
  have hlines : Listing.lines image = ["200: 81 23  XOR V1, V2".toList,
      "202: FF FF  ???".toList, "204: 00     ???".toList] := by decide
  have hfits : image.length ≤ 3584 := by decide
  obtain ⟨m, hload, hlisted⟩ := fetched_as_listed hfits (Keystream.source 0) .absent .standard
  obtain ⟨memory, -, hm⟩ := eq_of_load hload
  obtain ⟨line, hline, -, hfetched, -⟩ :=
    hlisted m 0 rfl (by decide) (by rw [hm]; rfl)
  obtain ⟨line', hline', -, -, hunknown⟩ :=
    hlisted (m.goTo 0x202) 1 rfl (by decide) rfl
  rw [hlines] at hline hline'
  refine ⟨hlines, hfits, m, hload, (hfetched _ _).mpr ⟨rfl, ?_⟩, (hunknown _).mpr ⟨rfl, ?_⟩⟩
  · rw [← Option.some.inj hline]
    decide
  · rw [← Option.some.inj hline']
    decide

/-- Without the blank the end of a line does not tell what is fetched: the line of an
    exclusive or ends in the text of an or as well. -/
theorem not_fetched_as_suffix :
    ¬ ∀ (image : List Byte) (source : RandomSource) (keypad : Keypad) (config : Config)
        (m : Machine) (k : Nat) (line : Text), image.length ≤ 3584 →
      load source image keypad config = .ok m → k < image.length / 2 →
      m.registers.pc.toNat = 0x200 + 2 * k → (Listing.lines image)[k]? = some line →
      ∀ i, m.fetch = .ok (m.word, i) ↔ i.text <:+ line := by
  intro h
  have hfits : ([0x81, 0x23] : List Byte).length ≤ 3584 := by decide
  obtain ⟨m, hload, hpc, hcode⟩ :=
    exists_load_image hfits (Keystream.source 0) .absent .standard
  have hstart : m.registers.pc.toNat = 0x200 + 2 * 0 := by rw [hpc]; rfl
  have hline : (Listing.lines [0x81, 0x23])[0]? = some "200: 81 23  XOR V1, V2".toList := by
    decide
  have hread : m.memory.readWord (BitVec.ofNat 16 (0x200 + 0)) = bigEndian 0x81 0x23 :=
    hcode.readWord (by decide) (by decide)
  have hword : m.word = 0x8123 := by
    rw [word, hpc]
    exact hread.trans (by decide)
  have hor : Instruction.text (.arith .or 1 2) <:+ "200: 81 23  XOR V1, V2".toList := by decide
  have hfetch := (h _ _ _ _ m 0 _ hfits hload (by decide) hstart hline _).mpr hor
  have hdecode := ((fetch_ok_iff (by rw [hstart]) _ _).mp hfetch).2
  rw [hword] at hdecode
  exact absurd hdecode (by decide)

end Machine

end Chip8
