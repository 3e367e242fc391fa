import Chip8.Proofs.Readings

/-! # Forms — the table of statements

    A mnemonic has one or several forms, and a form is a row of places: each place takes a
    register, a byte, a nibble, an address or a certain keyword.  `forms` is the table.  The
    shapes of the operands select the form, and the form then takes its operands from the
    list by their place and reads them from left to right: `instruction_of_form`.  What a
    form makes of its tokens is one case of `Form.Makes` for each kind of form, so what
    holds of every kind holds of every statement, and the rows are walked only once. -/

namespace Chip8.Statement

open Token

/-! ## The table -/

/-- What a place of a statement takes. -/
inductive Place where
  | register | byte | nibble | address
  | keyword (word : Shape)
  deriving DecidableEq, Repr

/-- The shape of the operands that a place takes.  A nibble looks like a byte. -/
def Place.shape : Place → Shape
  | .register       => .register
  | .byte | .nibble => .byte
  | .address        => .address
  | .keyword word   => word

/-- How operands make an instruction. -/
inductive Form where
  | fixed (i : Instruction)
  | address (make : Word → Instruction)
  | addressBehind (word : Shape) (make : Word → Instruction)
  | jumpPlus
  | register (make : Byte → Instruction)
  | registerBehind (word : Shape) (make : Byte → Instruction)
  | registerBefore (word : Shape) (make : Byte → Instruction)
  | registers (make : Byte → Byte → Instruction)
  | registerByte (make : Byte → Byte → Instruction)
  | draw

namespace Form

/-- The places of a form, from left to right. -/
def places : Form → List Place
  | .fixed _               => []
  | .address _             => [.address]
  | .addressBehind word _  => [.keyword word, .address]
  | .jumpPlus              => [.register, .address]
  | .register _            => [.register]
  | .registerBehind word _ => [.keyword word, .register]
  | .registerBefore word _ => [.register, .keyword word]
  | .registers _           => [.register, .register]
  | .registerByte _        => [.register, .byte]
  | .draw                  => [.register, .register, .nibble]

/-- The shapes that select the form. -/
def shapes (f : Form) : List Shape := f.places.map Place.shape

/-- The outcome of a form on tokens, or nothing if it would take an operand that is not in
    the list. -/
def run : Form → List Text → Option (Except StatementError Instruction)
  | .fixed i, _                => some (.ok i)
  | .address make, ts          => return Statement.ofAddress make (← ts[0]?)
  | .addressBehind _ make, ts  => return Statement.ofAddress make (← ts[1]?)
  | .jumpPlus, ts              => return ofJumpPlus (← ts[0]?) (← ts[1]?)
  | .register make, ts         => return ofRegister make (← ts[0]?)
  | .registerBehind _ make, ts => return ofRegister make (← ts[1]?)
  | .registerBefore _ make, ts => return ofRegister make (← ts[0]?)
  | .registers make, ts        => return ofRegisters make (← ts[0]?) (← ts[1]?)
  | .registerByte make, ts     => return ofRegisterByte make (← ts[0]?) (← ts[1]?)
  | .draw, ts                  => return ofDraw (← ts[0]?) (← ts[1]?) (← ts[2]?)

end Form

/-- The forms of a mnemonic. -/
def forms : Mnemonic → List Form
  | .sys  => [.address .routine]
  | .cls  => [.fixed .clear]
  | .ret  => [.fixed .ret]
  | .jp   => [.address .jump, .jumpPlus]
  | .call => [.address .call]
  | .se   => [.registerByte (.skip <| .eqByte · ·), .registers (.skip <| .eqReg · ·)]
  | .sne  => [.registerByte (.skip <| .neByte · ·), .registers (.skip <| .neReg · ·)]
  | .ld   =>
    [.registerByte .loadByte, .registers (.arith .move), .addressBehind .index .loadIndex,
     .registerBefore .delay .loadDelay, .registerBefore .key .loadKey,
     .registerBehind .delay .setDelay, .registerBehind .sound .setSound,
     .registerBehind .font .loadGlyph, .registerBehind .decimal .storeDecimal,
     .registerBehind .index .storeRegisters, .registerBefore .index .loadRegisters]
  | .add  => [.registerByte .addByte, .registers (.arith .add), .registerBehind .index .addIndex]
  | .or   => [.registers (.arith .or)]
  | .and  => [.registers (.arith .and)]
  | .xor  => [.registers (.arith .xor)]
  | .sub  => [.registers (.arith .sub)]
  | .subn => [.registers (.arith .subFrom)]
  | .shr  => [.register (.shift .right)]
  | .shl  => [.register (.shift .left)]
  | .rnd  => [.registerByte .random]
  | .drw  => [.draw]
  | .skp  => [.register (.skip <| .keyDown ·)]
  | .sknp => [.register (.skip <| .keyUp ·)]

/-- No other mnemonic has the form that adds a register. -/
theorem eq_jp_of_jumpPlus {m : Mnemonic} (h : Form.jumpPlus ∈ forms m) : m = .jp := by
  cases m <;> simp [forms] at h ⊢

/-! ## The table against the reading of statements -/

section Rows

variable {m : Mnemonic} {f : Form} {ps : List (Shape × Text)}

/-- Operands with the shapes of a form are read as the form reads them. -/
theorem read_of_shapes (hf : f ∈ forms m) (hs : f.shapes = ps.map Prod.fst) :
    read m ps = f.run (ps.map Prod.snd) := by
  -- no form has more than three places, and each row is read off the table
  rcases ps with _ | ⟨⟨s, t⟩, _ | ⟨⟨s', t'⟩, _ | ⟨⟨s'', t''⟩, _ | ⟨p, r⟩⟩⟩⟩
  all_goals cases m
  all_goals
    simp only [forms, List.mem_cons, List.not_mem_nil, or_false] at hf
    repeat' rcases hf with rfl | hf
  all_goals cases hs <;> rfl

/-- Operands without the shapes of any form of `LD` are not read. -/
theorem readLoad_of_no_shapes
    (h : (forms .ld).find? (fun f => f.shapes = ps.map Prod.fst) = none) :
    readLoad ps = none := by
  unfold readLoad
  split
  -- at every row that is read the search finds a form, against the hypothesis
  all_goals try cases h
  rfl

/-- Operands without the shapes of any form are not read. -/
theorem read_of_no_shapes (h : (forms m).find? (fun f => f.shapes = ps.map Prod.fst) = none) :
    read m ps = none := by
  unfold read
  split
  all_goals try cases h
  -- the rows of `LD` are a table of their own
  · exact readLoad_of_no_shapes h
  · rfl

end Rows

/-! ## Statements by their form -/

section Lists

variable {α β : Type} {f : α → β} {s s' s'' : β} {ts : List α}

theorem eq_singleton_of_map (h : [s] = ts.map f) : ∃ t, ts = [t] ∧ f t = s := by
  obtain ⟨t, r, rfl, ht, hr⟩ := List.map_eq_cons_iff.mp h.symm
  rw [List.map_eq_nil_iff.mp hr]
  exact ⟨t, rfl, ht⟩

theorem eq_pair_of_map (h : [s, s'] = ts.map f) : ∃ t u, ts = [t, u] ∧ f t = s ∧ f u = s' := by
  obtain ⟨t, r, rfl, ht, hr⟩ := List.map_eq_cons_iff.mp h.symm
  obtain ⟨u, rfl, hu⟩ := eq_singleton_of_map hr.symm
  exact ⟨t, u, rfl, ht, hu⟩

theorem eq_triple_of_map (h : [s, s', s''] = ts.map f) :
    ∃ t u v, ts = [t, u, v] ∧ f t = s ∧ f u = s' ∧ f v = s'' := by
  obtain ⟨t, r, rfl, ht, hr⟩ := List.map_eq_cons_iff.mp h.symm
  obtain ⟨u, v, rfl, hu, hv⟩ := eq_pair_of_map hr.symm
  exact ⟨t, u, v, rfl, ht, hu, hv⟩

end Lists

/-- There is a token for each place that a form reads. -/
theorem Form.exists_run {f : Form} {ts : List Text} (h : ts.length = f.places.length) :
    ∃ r, f.run ts = some r := by
  rcases ts with _ | ⟨a, _ | ⟨b, _ | ⟨c, _ | ⟨d, ts⟩⟩⟩⟩
  all_goals cases f
  all_goals cases h <;> exact ⟨_, rfl⟩

section Tokens

variable {m : Mnemonic} {ts : List Text}

/-- Tokens with the shapes of a form are read as the form reads them. -/
theorem read_tokens {f : Form} (hf : f ∈ forms m) (hs : f.shapes = ts.map shape) :
    read m (ts.map fun t => (shape t, t)) = f.run ts := by
  rw [read_of_shapes hf (by rw [hs, List.map_map]; rfl), List.map_map]
  congr 1
  exact List.map_id ts

/-- Tokens with the shapes of no form are not read. -/
theorem read_tokens_eq_none (h : ∀ f ∈ forms m, f.shapes ≠ ts.map shape) :
    read m (ts.map fun t => (shape t, t)) = none := by
  refine read_of_no_shapes (List.find?_eq_none.mpr ?_)
  intro f hf hs
  refine h f hf ?_
  rw [of_decide_eq_true hs, List.map_map]
  rfl

end Tokens

/-- What a form makes of tokens with its shapes: the builder with the tokens that it takes.
    Where an address stands, its shape is kept, since it says that the address is one. -/
inductive Form.Makes : Form → List Text → Except StatementError Instruction → Prop where
  | fixed (i : Instruction) : Makes (.fixed i) [] (.ok i)
  | address (make : Word → Instruction) {a : Text} (ha : Token.shape a = .address) :
      Makes (.address make) [a] (Statement.ofAddress make a)
  | addressBehind {word : Shape} (make : Word → Instruction) (t : Text) {a : Text}
      (ha : Token.shape a = .address) :
      Makes (.addressBehind word make) [t, a] (Statement.ofAddress make a)
  | jumpPlus {x a : Text} (hx : Token.shape x = .register) (ha : Token.shape a = .address) :
      Makes .jumpPlus [x, a] (ofJumpPlus x a)
  | register (make : Byte → Instruction) (x : Text) :
      Makes (.register make) [x] (ofRegister make x)
  | registerBehind {word : Shape} (make : Byte → Instruction) (t x : Text) :
      Makes (.registerBehind word make) [t, x] (ofRegister make x)
  | registerBefore {word : Shape} (make : Byte → Instruction) (x t : Text) :
      Makes (.registerBefore word make) [x, t] (ofRegister make x)
  | registers (make : Byte → Byte → Instruction) (x y : Text) :
      Makes (.registers make) [x, y] (ofRegisters make x y)
  | registerByte (make : Byte → Byte → Instruction) (x k : Text) :
      Makes (.registerByte make) [x, k] (ofRegisterByte make x k)
  | draw (x y n : Text) : Makes .draw [x, y, n] (ofDraw x y n)

/-- The outcome of a form on tokens with its shapes. -/
theorem Form.makes_of_run {f : Form} {ts : List Text} {r : Except StatementError Instruction}
    (hs : f.shapes = ts.map shape) (hrun : f.run ts = some r) : f.Makes ts r := by
  cases f with
  | fixed i =>
      obtain rfl := List.map_eq_nil_iff.mp hs.symm
      cases hrun
      exact .fixed i
  | address make =>
      obtain ⟨a, rfl, ha⟩ := eq_singleton_of_map hs
      cases hrun
      exact .address make ha
  | addressBehind word make =>
      obtain ⟨t, a, rfl, -, ha⟩ := eq_pair_of_map hs
      cases hrun
      exact .addressBehind make t ha
  | jumpPlus =>
      obtain ⟨x, a, rfl, hx, ha⟩ := eq_pair_of_map hs
      cases hrun
      exact .jumpPlus hx ha
  | register make =>
      obtain ⟨x, rfl, -⟩ := eq_singleton_of_map hs
      cases hrun
      exact .register make x
  | registerBehind word make =>
      obtain ⟨t, x, rfl, -, -⟩ := eq_pair_of_map hs
      cases hrun
      exact .registerBehind make t x
  | registerBefore word make =>
      obtain ⟨x, t, rfl, -, -⟩ := eq_pair_of_map hs
      cases hrun
      exact .registerBefore make x t
  | registers make =>
      obtain ⟨x, y, rfl, -, -⟩ := eq_pair_of_map hs
      cases hrun
      exact .registers make x y
  | registerByte make =>
      obtain ⟨x, k, rfl, -, -⟩ := eq_pair_of_map hs
      cases hrun
      exact .registerByte make x k
  | draw =>
      obtain ⟨x, y, n, rfl, -, -, -⟩ := eq_triple_of_map hs
      cases hrun
      exact .draw x y n

section Instruction

variable {mnemonic : Text} {operands : List Text}

theorem instruction_of_unknown (h : Mnemonic.ofName? (Mnemonic.canonical mnemonic) = none) :
    instruction mnemonic operands =
      .error (.unknownInstruction (Text.upper (Text.trim mnemonic))) := by
  simp only [instruction, h]

variable {m : Mnemonic} (hm : Mnemonic.ofName? (Mnemonic.canonical mnemonic) = some m)
include hm

/-- A statement whose operands have the shapes of a form has the outcome of the form. -/
theorem instruction_of_form {f : Form} (hf : f ∈ forms m)
    (hs : f.shapes = (operands.map ofOperand).map shape) :
    f.run (operands.map ofOperand) = some (instruction mnemonic operands) := by
  have hlength : (operands.map ofOperand).length = f.places.length := by
    simpa [Form.shapes] using (congrArg List.length hs).symm
  obtain ⟨r, hr⟩ := Form.exists_run hlength
  simp only [instruction, hm, read_tokens hf hs, hr]

theorem makes_instruction {f : Form} (hf : f ∈ forms m)
    (hs : f.shapes = (operands.map ofOperand).map shape) :
    f.Makes (operands.map ofOperand) (instruction mnemonic operands) :=
  Form.makes_of_run hs (instruction_of_form hm hf hs)

/-- A statement whose operands have the shapes of no form is refused as a whole. -/
theorem instruction_of_no_form (h : ∀ f ∈ forms m, f.shapes ≠ (operands.map ofOperand).map shape) :
    instruction mnemonic operands =
      .error (.invalidOperands (Text.upper (Text.trim mnemonic)) (operands.map ofOperand)) := by
  simp only [instruction, hm, read_tokens_eq_none h]

end Instruction

end Chip8.Statement
