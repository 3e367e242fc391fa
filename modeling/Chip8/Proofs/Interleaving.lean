import Chip8.Machine.SharedPad
import Mathlib.Algebra.Group.Nat.Defs
import Mathlib.Data.List.Induction

/-! # Interleaving — calls that wait at a pad while other threads handle it

    Whoever touches the pad or looks at it holds its lock meanwhile, so all that any number
    of threads do is a single row of steps, and every row can come about: a call that waits
    may look again at any time, woken by a press or by nothing.  The pad keeps no list of
    what happened, only a count and the latest press.  `PadScene.Recorded` says what these
    tell of the steps made so far, and with the count that a call noted when it began they
    tell what happened since: a look answers as if the pad had kept the list. -/

namespace Chip8

/-! ## Threads at one pad -/

/-- What a thread does while it holds the lock of the pad.  The calls that wait are told
    apart by numbers. -/
inductive PadStep where
  | touch (e : PadEvent)
  /-- A call begins: it notes the count of presses and looks for the first time. -/
  | start (call : Nat)
  /-- A call that still waits looks again. -/
  | look (call : Nat)
  deriving DecidableEq, Repr

/-- The code that the pad accepts at a step, if one is pressed. -/
def PadStep.accepts : PadStep → Option Byte
  | .touch (.press code) => if code.toNat ≤ 15 then some code else none
  | _                    => none

/-- What a call has come to. -/
inductive WaitCall where
  | idle
  /-- It has begun when the count of presses was `seen`, and no look has ended it. -/
  | waiting (seen : BitVec 64)
  /-- It has returned the code of a key, or none from a closed pad. -/
  | returned (answer : Option Byte)
  deriving DecidableEq, Repr

/-- What a call has come to when it has looked. -/
def WaitAnswer.toCall (seen : BitVec 64) : WaitAnswer → WaitCall
  | .pressed code => .returned (some code)
  | .closed       => .returned none
  | .silent       => .waiting seen

/-- Whether a call has begun and not returned. -/
def WaitCall.waits : WaitCall → Bool
  | .waiting _ => true
  | _          => false

/-- A pad and the calls at it. -/
structure PadScene where
  pad : SharedPad
  calls : Nat → WaitCall

namespace PadScene

/-- Nobody has touched the pad, and no call has begun. -/
def fresh : PadScene := ⟨.fresh, fun _ => .idle⟩

/-- The scene when a call that noted the count `seen` has looked. -/
def looked (s : PadScene) (call : Nat) (seen : BitVec 64) : PadScene :=
  { s with calls := fun c => if c = call then (s.pad.check seen).toCall seen else s.calls c }

/-- The scene after a step.  A call begins once, and looks only while it waits. -/
def apply (s : PadScene) : PadStep → PadScene
  | .touch e    => { s with pad := s.pad.apply e }
  | .start call =>
    match s.calls call with
    | .idle => s.looked call s.pad.presses
    | _     => s
  | .look call  =>
    match s.calls call with
    | .waiting seen => s.looked call seen
    | _             => s

/-- The scene after steps in a row, beginning with a fresh pad. -/
def after (steps : List PadStep) : PadScene := steps.foldl apply fresh

theorem after_append_singleton (steps : List PadStep) (x : PadStep) :
    after (steps ++ [x]) = (after steps).apply x := by
  rw [after, List.foldl_append, ← after]
  rfl

/-! ## What one step does -/

theorem apply_start {s : PadScene} {call : Nat} (h : s.calls call = .idle) :
    s.apply (.start call) = s.looked call s.pad.presses := by
  simp only [apply, h]

theorem apply_look {s : PadScene} {call : Nat} {seen : BitVec 64}
    (h : s.calls call = .waiting seen) : s.apply (.look call) = s.looked call seen := by
  simp only [apply, h]

theorem calls_looked (s : PadScene) (call : Nat) (seen : BitVec 64) :
    (s.looked call seen).calls call = (s.pad.check seen).toCall seen := if_pos rfl

/-- Looking leaves the pad alone. -/
theorem pad_apply (s : PadScene) (x : PadStep) :
    (s.apply x).pad = match x with
      | .touch e => s.pad.apply e
      | _        => s.pad := by
  cases x with
  | touch e => rfl
  | start call =>
      simp only [apply]
      split <;> rfl
  | look call =>
      simp only [apply]
      split <;> rfl

/-- How a step moves a call on. -/
inductive Moves (s : PadScene) (call : Nat) : PadStep → WaitCall → Prop where
  | start (idle : s.calls call = .idle) :
      Moves s call (.start call) ((s.pad.check s.pad.presses).toCall s.pad.presses)
  | look {seen : BitVec 64} (waits : s.calls call = .waiting seen) :
      Moves s call (.look call) ((s.pad.check seen).toCall seen)

/-- A step leaves a call where it is or moves it on. -/
theorem calls_apply (s : PadScene) (x : PadStep) (call : Nat) :
    (s.apply x).calls call = s.calls call ∨ s.Moves call x ((s.apply x).calls call) := by
  -- only the steps of the call itself reach it
  have hother : ∀ (c : Nat) (seen : BitVec 64), c ≠ call →
      (s.looked c seen).calls call = s.calls call := fun c seen hc => if_neg hc.symm
  cases x with
  | touch e => exact Or.inl rfl
  | start c =>
      cases hidle : s.calls c with
      | idle =>
          rw [apply_start hidle]
          by_cases hc : c = call
          · subst hc
            rw [calls_looked]
            exact Or.inr (.start hidle)
          · exact Or.inl (hother c _ hc)
      | waiting seen => simp only [apply, hidle, true_or]
      | returned answer => simp only [apply, hidle, true_or]
  | look c =>
      cases hwaits : s.calls c with
      | waiting seen =>
          rw [apply_look hwaits]
          by_cases hc : c = call
          · subst hc
            rw [calls_looked]
            exact Or.inr (.look hwaits)
          · exact Or.inl (hother c _ hc)
      | idle => simp only [apply, hwaits, true_or]
      | returned answer => simp only [apply, hwaits, true_or]

/-! ## What the pad tells of the steps -/

/-- The codes of the presses that the pad accepts, in order. -/
def accepted (steps : List PadStep) : List Byte := steps.filterMap PadStep.accepts

theorem accepted_append (s t : List PadStep) : accepted (s ++ t) = accepted s ++ accepted t :=
  List.filterMap_append

theorem le_of_mem_accepted {steps : List PadStep} {code : Byte} (h : code ∈ accepted steps) :
    code.toNat ≤ 15 := by
  obtain ⟨x, -, hx⟩ := List.mem_filterMap.mp h
  unfold PadStep.accepts at hx
  split at hx
  · split at hx <;> cases hx
    assumption
  · cases hx

/-- What a pad tells of the steps: how many presses it accepted, which was the latest, and
    whether it has been closed. -/
structure Recorded (steps : List PadStep) (p : SharedPad) : Prop where
  count : p.presses = BitVec.ofNat 64 (accepted steps).length
  latest : ∀ code, (accepted steps).getLast? = some code → p.lastPress = code
  closed : p.closed = true ↔ .touch .close ∈ steps

/-- A step that neither presses a key nor closes the pad leaves its records alone. -/
theorem Recorded.of_eq {steps : List PadStep} {p p' : SharedPad} {x : PadStep}
    (h : Recorded steps p) (hx : x.accepts = none) (hclose : x ≠ .touch .close)
    (hpresses : p'.presses = p.presses) (hlatest : p'.lastPress = p.lastPress)
    (hclosed : p'.closed = p.closed) : Recorded (steps ++ [x]) p' := by
  have hsame : accepted (steps ++ [x]) = accepted steps := by
    simp [accepted, hx]
  have hmem : .touch .close ∈ steps ++ [x] ↔ .touch .close ∈ steps := by
    simp [hclose.symm]
  exact ⟨by rw [hsame, hpresses, h.count], by rw [hsame, hlatest]; exact h.latest,
    by rw [hmem, hclosed, h.closed]⟩

theorem Recorded.press {steps : List PadStep} {p : SharedPad} (h : Recorded steps p)
    (code : Byte) : Recorded (steps ++ [.touch (.press code)]) (p.press code) := by
  by_cases hcode : code.toNat ≤ 15
  · have haccepted : accepted (steps ++ [.touch (.press code)]) = accepted steps ++ [code] := by
      simp [accepted, PadStep.accepts, hcode]
    rw [SharedPad.press, if_pos hcode]
    refine ⟨?_, ?_, ?_⟩
    · rw [haccepted, List.length_append, List.length_singleton, BitVec.ofNat_add, ← h.count]
      rfl
    · intro c hc
      rw [haccepted, List.getLast?_concat] at hc
      exact Option.some.inj hc
    · rw [List.mem_append, List.mem_singleton, h.closed]
      simp
  · rw [SharedPad.press, if_neg hcode]
    exact h.of_eq (if_neg hcode) (by simp) rfl rfl rfl

/-- After any steps the pad tells of them. -/
theorem recorded_after (steps : List PadStep) : Recorded steps (after steps).pad := by
  induction steps using List.reverseRecOn with
  | nil => exact ⟨rfl, by simp [accepted], by simp [after, fresh, SharedPad.fresh]⟩
  | append_singleton steps x ih =>
      rw [after_append_singleton, pad_apply]
      cases x with
      | touch e =>
          cases e with
          | press code => exact ih.press code
          | release code => exact ih.of_eq rfl (by simp) rfl rfl rfl
          | close =>
              have hsame : accepted (steps ++ [.touch .close]) = accepted steps := by
                simp [accepted, PadStep.accepts]
              exact ⟨by rw [hsame]; exact ih.count, by rw [hsame]; exact ih.latest,
                iff_of_true rfl (List.mem_append_right steps List.mem_cons_self)⟩
      | start call => exact ih.of_eq rfl (by simp) rfl rfl rfl
      | look call => exact ih.of_eq rfl (by simp) rfl rfl rfl

/-! ## What a look answers -/

/-- A call that is not among the steps has not begun. -/
theorem idle_of_not_started {steps : List PadStep} {call : Nat} (h : .start call ∉ steps) :
    (after steps).calls call = .idle := by
  induction steps using List.reverseRecOn with
  | nil => rfl
  | append_singleton steps x ih =>
      rw [List.mem_append, not_or, List.mem_singleton] at h
      have hidle := ih h.1
      rw [after_append_singleton]
      rcases calls_apply (after steps) x call with hsame | hmoves
      · rw [hsame, hidle]
      · generalize hc : ((after steps).apply x).calls call = c at hmoves
        cases hmoves with
        | start _ => exact absurd rfl h.2
        | look waits =>
            rw [hidle] at waits
            cases waits

theorem toCall_eq_or (seen : BitVec 64) (answer : WaitAnswer) :
    answer.toCall seen = .waiting seen ∨ ∃ a, answer.toCall seen = .returned a := by
  cases answer with
  | pressed code => exact Or.inr ⟨some code, rfl⟩
  | closed => exact Or.inr ⟨none, rfl⟩
  | silent => exact Or.inl rfl

/-- What holds of a call that has begun, and is kept whenever it looks, holds of it after
    any further steps. -/
theorem calls_run (P : WaitCall → Prop) (begun later : List PadStep) (call : Nat)
    (hbegun : P ((after begun).calls call)) (hidle : ¬ P .idle)
    (hlook : ∀ front seen, front <+: later → P (.waiting seen) →
      P (((after (begun ++ front)).pad.check seen).toCall seen)) :
    P ((after (begun ++ later)).calls call) := by
  induction later using List.reverseRecOn with
  | nil => rwa [List.append_nil]
  | append_singleton later x ih =>
      have hprefix : later <+: later ++ [x] := List.prefix_append later [x]
      have hbefore := ih fun front seen hfront => hlook front seen (hfront.trans hprefix)
      rw [← List.append_assoc, after_append_singleton]
      rcases calls_apply (after (begun ++ later)) x call with hsame | hmoves
      · rwa [hsame]
      · generalize ((after (begun ++ later)).apply x).calls call = c at hmoves ⊢
        cases hmoves with
        | start idle =>
            rw [idle] at hbefore
            exact absurd hbefore hidle
        | look waits =>
            rw [waits] at hbefore
            exact hlook later _ hprefix hbefore

/-- A call that has begun waits with the count that it noted then, until it returns. -/
theorem waiting_or_returned {before : List PadStep} {call : Nat} (hfirst : .start call ∉ before)
    (between : List PadStep) :
    let now := (after (before ++ .start call :: between)).calls call
    now = .waiting (after before).pad.presses ∨ ∃ a, now = .returned a := by
  have hrun := calls_run
    (fun c => c = .waiting (after before).pad.presses ∨ ∃ a, c = .returned a)
    (before ++ [.start call]) between call ?_ (by simp) ?_
  · rwa [List.append_assoc] at hrun
  · rw [after_append_singleton, apply_start (idle_of_not_started hfirst), calls_looked]
    exact toCall_eq_or _ _
  · rintro front seen - (h | ⟨a, h⟩)
    · cases h
      exact toCall_eq_or _ _
    · cases h

/-- What a look finds if the pad had kept the list of the steps: the latest press since the
    call began, unless the pad has been closed at any time. -/
def answerSince (steps between : List PadStep) : WaitAnswer :=
  if .touch .close ∈ steps then .closed
  else
    match (accepted between).getLast? with
    | some code => .pressed code
    | none      => .silent

theorem accepted_started (before between : List PadStep) (call : Nat) :
    accepted (before ++ .start call :: between) = accepted before ++ accepted between := by
  rw [accepted_append]
  rfl

/-- Fewer than 2^64 presses do not bring the count back to where it was. -/
theorem check_eq_answerSince (before : List PadStep) (call : Nat) {between : List PadStep}
    (hfew : (accepted between).length < 2 ^ 64) :
    let steps := before ++ .start call :: between
    (after steps).pad.check (after before).pad.presses = answerSince steps between := by
  intro steps
  have hsteps : Recorded steps (after steps).pad := recorded_after steps
  have haccepted : accepted steps = accepted before ++ accepted between :=
    accepted_started before between call
  by_cases hclosed : .touch .close ∈ steps
  · rw [answerSince, if_pos hclosed, SharedPad.check, if_pos (hsteps.closed.mpr hclosed)]
  have hopen : ¬ (after steps).pad.closed = true := mt hsteps.closed.mp hclosed
  rw [answerSince, if_neg hclosed, SharedPad.check, if_neg hopen]
  have hcount : (after steps).pad.presses = (after before).pad.presses ↔
      accepted between = [] := by
    rw [hsteps.count, (recorded_after before).count, ← BitVec.toNat_inj, BitVec.toNat_ofNat,
      BitVec.toNat_ofNat, haccepted, List.length_append, ← List.length_eq_zero_iff]
    omega
  cases hlast : (accepted between).getLast? with
  | none =>
      have hnone : accepted between = [] := List.getLast?_eq_none_iff.mp hlast
      rw [if_neg (not_not_intro (hcount.mpr hnone))]
  | some code =>
      have hsome : accepted between ≠ [] :=
        List.ne_nil_of_mem (List.mem_of_getLast? hlast)
      have hlatest : (accepted steps).getLast? = some code := by
        rw [haccepted, List.getLast?_append, hlast]
        rfl
      rw [if_pos (mt hcount.mp hsome), hsteps.latest code hlatest]

/-- A look of a call that waits. -/
theorem look_eq {before between : List PadStep} {call : Nat} (hfirst : .start call ∉ before)
    (hwaits : ((after (before ++ .start call :: between)).calls call).waits = true)
    (hfew : (accepted between).length < 2 ^ 64) :
    (after (before ++ .start call :: between ++ [.look call])).calls call =
      (answerSince (before ++ .start call :: between) between).toCall
        (after before).pad.presses := by
  rcases waiting_or_returned hfirst between with h | ⟨a, h⟩
  · rw [after_append_singleton, apply_look h, calls_looked,
      check_eq_answerSince before call hfew]
  · rw [h] at hwaits
    cases hwaits

/-! ## What a call returns -/

/-- A call returns at a step of its own, when it looks. -/
theorem exists_step_of_returned {steps : List PadStep} {call : Nat} {answer : Option Byte}
    (h : (after steps).calls call = .returned answer) :
    ∃ front x behind, steps = front ++ x :: behind ∧ (x = .start call ∨ x = .look call) ∧
      (∀ a, (after front).calls call ≠ .returned a) ∧
      (after (front ++ [x])).calls call = .returned answer := by
  induction steps using List.reverseRecOn with
  | nil => cases h
  | append_singleton steps x ih =>
      have hnow := h
      rw [after_append_singleton] at h
      rcases calls_apply (after steps) x call with hsame | hmoves
      · obtain ⟨front, y, behind, rfl, hy, hfront, hy'⟩ := ih (hsame ▸ h)
        exact ⟨front, y, behind ++ [x], by simp, hy, hfront, hy'⟩
      · refine ⟨steps, x, [], rfl, ?_, ?_, hnow⟩
        · generalize ((after steps).apply x).calls call = c at hmoves
          cases hmoves with
          | start _ => exact Or.inl rfl
          | look _ => exact Or.inr rfl
        · intro a ha
          generalize ((after steps).apply x).calls call = c at hmoves
          cases hmoves with
          | start idle =>
              rw [ha] at idle
              cases idle
          | look waits =>
              rw [ha] at waits
              cases waits

/-- When a key has been pressed since a call began, a look of the call at an open pad finds
    that press or a later one. -/
theorem answerSince_of_press {steps : List PadStep} (hopen : .touch .close ∉ steps)
    {code : Byte} (hcode : code.toNat ≤ 15) (mid later : List PadStep) :
    ∃ found ∈ code :: accepted later,
      answerSince steps (mid ++ .touch (.press code) :: later) = .pressed found := by
  have haccepted : accepted (mid ++ .touch (.press code) :: later) =
      accepted mid ++ code :: accepted later := by
    rw [accepted_append]
    simp [accepted, PadStep.accepts, hcode]
  have hne : code :: accepted later ≠ [] := List.cons_ne_nil _ _
  refine ⟨(code :: accepted later).getLast hne, List.getLast_mem hne, ?_⟩
  rw [answerSince, if_neg hopen, haccepted, List.getLast?_append,
    List.getLast?_eq_some_getLast hne]
  rfl

/-- A call that waits when a key is pressed has, as long as the pad stays open, not looked
    since, or it has returned that press or a later one. -/
theorem waiting_or_answered {before mid later : List PadStep} {call : Nat} {code : Byte}
    (hfirst : .start call ∉ before)
    (hwaits : ((after (before ++ .start call :: mid)).calls call).waits = true)
    (hcode : code.toNat ≤ 15)
    (hopen : .touch .close ∉ before ++ .start call :: (mid ++ .touch (.press code) :: later))
    (hfew : (accepted (mid ++ .touch (.press code) :: later)).length < 2 ^ 64) :
    let now := (after (before ++ .start call :: (mid ++ .touch (.press code) :: later))).calls call
    now = .waiting (after before).pad.presses ∨
      ∃ found ∈ code :: accepted later, now = .returned (some found) := by
  have hpressed : ∀ rest, before ++ .start call :: mid ++ [.touch (.press code)] ++ rest =
      before ++ .start call :: (mid ++ .touch (.press code) :: rest) := fun rest => by simp
  have hrun := calls_run
    (fun c => c = .waiting (after before).pad.presses ∨
      ∃ found ∈ code :: accepted later, c = .returned (some found))
    (before ++ .start call :: mid ++ [.touch (.press code)]) later call ?_ (by simp) ?_
  · rwa [hpressed] at hrun
  -- the press itself leaves the call where it is
  · rw [after_append_singleton]
    rcases waiting_or_returned hfirst mid with h | ⟨a, h⟩
    · exact Or.inl h
    · rw [h] at hwaits
      cases hwaits
  · rintro front seen ⟨behind, rfl⟩ (h | ⟨found, -, h⟩)
    · cases h
      have hlater : before ++ .start call :: (mid ++ .touch (.press code) :: front) ++ behind =
          before ++ .start call :: (mid ++ .touch (.press code) :: (front ++ behind)) := by simp
      have hopen' : .touch .close ∉
          before ++ .start call :: (mid ++ .touch (.press code) :: front) :=
        fun hclose => hopen (hlater ▸ List.mem_append_left behind hclose)
      have hfew' : (accepted (mid ++ .touch (.press code) :: front)).length < 2 ^ 64 := by
        rw [← List.cons_append, ← List.append_assoc, accepted_append, List.length_append] at hfew
        exact Nat.lt_of_le_of_lt (Nat.le_add_right _ _) hfew
      obtain ⟨found, hfound, hanswer⟩ := answerSince_of_press hopen' hcode mid front
      rw [hpressed, check_eq_answerSince before call hfew', hanswer]
      refine Or.inr ⟨found, ?_, rfl⟩
      rw [accepted_append, ← List.cons_append]
      exact List.mem_append_left _ hfound
    · cases h

/-! ## The wait of a machine -/

/-- The steps of a call that looks when it begins and after each of some events. -/
def attended (call : Nat) (events : List PadEvent) : List PadStep :=
  .start call :: events.flatMap fun e => [.touch e, .look call]

/-- A call that has returned stays as it is. -/
theorem calls_foldl_of_returned {s : PadScene} {call : Nat} {a : Option Byte}
    (h : s.calls call = .returned a) (steps : List PadStep) :
    (steps.foldl apply s).calls call = .returned a := by
  induction steps generalizing s with
  | nil => exact h
  | cons x r ih =>
      refine ih ?_
      rcases calls_apply s x call with hsame | hmoves
      · rw [hsame, h]
      · generalize (s.apply x).calls call = c at hmoves ⊢
        cases hmoves with
        | start idle =>
            rw [h] at idle
            cases idle
        | look waits =>
            rw [h] at waits
            cases waits

theorem calls_foldl_events {s : PadScene} {call : Nat} {seen : BitVec 64}
    (h : s.calls call = (s.pad.check seen).toCall seen) (events : List PadEvent) :
    ((events.flatMap fun e => [PadStep.touch e, .look call]).foldl apply s).calls call =
      (s.pad.answer seen events).toCall seen := by
  induction events generalizing s with
  | nil => exact h
  | cons e r ih =>
      rw [SharedPad.answer]
      cases hc : s.pad.check seen with
      | silent =>
          rw [hc] at h
          have hwaits : (s.apply (.touch e)).calls call = .waiting seen := h
          have hlook : (s.apply (.touch e)).apply (.look call) =
              (s.apply (.touch e)).looked call seen := apply_look hwaits
          rw [List.flatMap_cons, List.foldl_append, List.foldl_cons, List.foldl_cons,
            List.foldl_nil, hlook]
          exact ih (calls_looked _ _ _)
      | pressed code =>
          rw [hc] at h
          exact calls_foldl_of_returned h _
      | closed =>
          rw [hc] at h
          exact calls_foldl_of_returned h _

/-- The wait that a machine makes is the call that looks after each event. -/
theorem calls_attended {before : List PadStep} {call : Nat} (hfirst : .start call ∉ before)
    (events : List PadEvent) :
    (after (before ++ attended call events)).calls call =
      ((after before).pad.wait events).toCall (after before).pad.presses := by
  have hstart : (after before).apply (.start call) =
      (after before).looked call (after before).pad.presses :=
    apply_start (idle_of_not_started hfirst)
  rw [after, List.foldl_append, ← after, attended, List.foldl_cons, hstart]
  exact calls_foldl_events (calls_looked _ _ _) events

/-! ## Every interleaving -/

theorem length_accepted_between {before between : List PadStep} {call : Nat}
    (hfew : (accepted (before ++ .start call :: between)).length < 2 ^ 64) :
    (accepted between).length < 2 ^ 64 := by
  rw [accepted_started, List.length_append] at hfew
  exact Nat.lt_of_le_of_lt (Nat.le_add_left _ _) hfew

/-- A call that begins returns at once from a closed pad, and waits at an open one. -/
theorem start_eq {before : List PadStep} {call : Nat} (hfirst : .start call ∉ before) :
    (after (before ++ [.start call])).calls call =
      if .touch .close ∈ before then .returned none
      else .waiting (after before).pad.presses := by
  rw [after_append_singleton, apply_start (idle_of_not_started hfirst), calls_looked,
    SharedPad.check]
  by_cases hclosed : .touch .close ∈ before
  · rw [if_pos ((recorded_after before).closed.mpr hclosed), if_pos hclosed]
    rfl
  · rw [if_neg (mt (recorded_after before).closed.mp hclosed), if_neg (not_not_intro rfl),
      if_neg hclosed]
    rfl

/-- What a look of a waiting call finds, in terms of the steps alone. -/
theorem look_iff {before between : List PadStep} {call : Nat} (hfirst : .start call ∉ before)
    (hwaits : ((after (before ++ .start call :: between)).calls call).waits = true)
    (hfew : (accepted between).length < 2 ^ 64) :
    let steps := before ++ .start call :: between
    let found := (after (steps ++ [.look call])).calls call
    (found = .returned none ↔ .touch .close ∈ steps) ∧
    (∀ code, found = .returned (some code) ↔
      .touch .close ∉ steps ∧ (accepted between).getLast? = some code) ∧
    (found.waits = true ↔ .touch .close ∉ steps ∧ accepted between = []) := by
  intro steps found
  have hfound : found = (answerSince steps between).toCall (after before).pad.presses :=
    look_eq hfirst hwaits hfew
  rw [hfound, answerSince]
  by_cases hclosed : .touch .close ∈ steps
  · rw [if_pos hclosed]
    simp [WaitAnswer.toCall, WaitCall.waits, hclosed]
  · rw [if_neg hclosed]
    cases hlast : (accepted between).getLast? with
    | none =>
        have hnone : accepted between = [] := List.getLast?_eq_none_iff.mp hlast
        simp [WaitAnswer.toCall, WaitCall.waits, hclosed, hnone]
    | some code =>
        have hsome : accepted between ≠ [] :=
          List.ne_nil_of_mem (List.mem_of_getLast? hlast)
        simp [WaitAnswer.toCall, WaitCall.waits, hclosed, hsome]

/-- One press ends all calls that wait. -/
theorem returned_of_press {steps later : List PadStep} {call : Nat} {code : Byte}
    (hwaits : ((after steps).calls call).waits = true) (hcode : code.toNat ≤ 15)
    (hopen : .touch .close ∉ steps ++ .touch (.press code) :: later)
    (hfew : (accepted (steps ++ .touch (.press code) :: later)).length < 2 ^ 64) :
    ∃ found ∈ code :: accepted later,
      (after (steps ++ .touch (.press code) :: later ++ [.look call])).calls call =
        .returned (some found) := by
  have hstarted : .start call ∈ steps := by
    by_contra hnot
    rw [idle_of_not_started hnot] at hwaits
    cases hwaits
  obtain ⟨before, mid, rfl, hfirst⟩ := List.eq_append_cons_of_mem hstarted
  have hwhole : before ++ .start call :: mid ++ .touch (.press code) :: later =
      before ++ .start call :: (mid ++ .touch (.press code) :: later) := by simp
  rw [hwhole] at hopen hfew ⊢
  have hfew' := length_accepted_between hfew
  rcases waiting_or_answered hfirst hwaits hcode hopen hfew' with h | ⟨found, hfound, h⟩
  · obtain ⟨found, hfound, hanswer⟩ := answerSince_of_press hopen hcode mid later
    refine ⟨found, hfound, ?_⟩
    rw [look_eq hfirst (by rw [h]; rfl) hfew', hanswer]
    rfl
  · refine ⟨found, hfound, ?_⟩
    rw [after_append_singleton]
    exact calls_foldl_of_returned h [.look call]

/-- **WAITS IN EVERY INTERLEAVING** of threads that press, release and close a pad with calls
    that wait at it, as long as fewer than 2^64 presses are accepted:

    * when a call begins, a pad that has been closed ends it at once, and it never returns
      a press from before;
    * whenever it looks again, it returns nothing if and only if the pad has been closed by
      then, whatever has been pressed; it returns a code if and only if the pad is open and
      that is the code of the latest press accepted since the call began; and it goes on
      waiting if and only if the pad is open and no press has been accepted since;
    * a call returns at such a look of its own and at no other step;
    * only codes up to 15 are accepted, and so returned;
    * one press ends every call that waits when it comes and then looks at an open pad,
      whatever else happens in between — the release of the key, other presses, or that
      other calls return it;
    * the wait that a machine makes is the call that looks after each of the events. -/
theorem waits_interleaved :
    (∀ before call, .start call ∉ before →
      (after (before ++ [.start call])).calls call =
        if .touch .close ∈ before then .returned none
        else .waiting (after before).pad.presses) ∧
    (∀ before call between, .start call ∉ before →
      let steps := before ++ .start call :: between
      let found := (after (steps ++ [.look call])).calls call
      ((after steps).calls call).waits = true → (accepted steps).length < 2 ^ 64 →
        (found = .returned none ↔ .touch .close ∈ steps) ∧
        (∀ code, found = .returned (some code) ↔
          .touch .close ∉ steps ∧ (accepted between).getLast? = some code) ∧
        (found.waits = true ↔ .touch .close ∉ steps ∧ accepted between = [])) ∧
    (∀ steps call answer, (after steps).calls call = .returned answer →
      ∃ front x behind, steps = front ++ x :: behind ∧ (x = .start call ∨ x = .look call) ∧
        (∀ a, (after front).calls call ≠ .returned a) ∧
        (after (front ++ [x])).calls call = .returned answer) ∧
    (∀ steps, ∀ code ∈ accepted steps, code.toNat ≤ 15) ∧
    (∀ steps code later call, ((after steps).calls call).waits = true → code.toNat ≤ 15 →
      let whole := steps ++ .touch (.press code) :: later
      .touch .close ∉ whole → (accepted whole).length < 2 ^ 64 →
      ∃ found ∈ code :: accepted later,
        (after (whole ++ [.look call])).calls call = .returned (some found)) ∧
    (∀ before call events, .start call ∉ before →
      (after (before ++ attended call events)).calls call =
        ((after before).pad.wait events).toCall (after before).pad.presses) := by
  refine ⟨fun _ _ => start_eq, ?_, fun _ _ _ => exists_step_of_returned,
    fun _ _ => le_of_mem_accepted, ?_, fun _ _ events hfirst => calls_attended hfirst events⟩
  · intro before call between hfirst steps found hwaits hfew
    exact look_iff hfirst hwaits (length_accepted_between hfew)
  · intro steps code later call hwaits hcode whole hopen hfew
    exact returned_of_press hwaits hcode hopen hfew

/-- A press from before and one that names no key are not delivered; one that has been
    released again is, to both calls; and a third call finds the pad closed, although it
    has been pressed meanwhile. -/
theorem waits_interleaved_released :
    let before : List PadStep := [.touch (.press 3)]
    let mid : List PadStep := [.start 1]
    let later : List PadStep := [.touch (.release 5), .touch (.press 0x42)]
    let between := mid ++ .touch (.press 5) :: later
    let steps := before ++ .start 0 :: between
    let third : List PadStep := [.touch (.press 7), .touch .close]
    (.start 0 ∉ before ∧ ((after steps).calls 0).waits = true ∧
      (accepted steps).length < 2 ^ 64 ∧
      (after (steps ++ [.look 0])).calls 0 = .returned (some 5)) ∧
    (((after (before ++ .start 0 :: mid)).calls 1).waits = true ∧
      ∃ found ∈ (5 : Byte) :: accepted later,
        (after (steps ++ [.look 1])).calls 1 = .returned (some found)) ∧
    (((after (steps ++ .start 2 :: third)).calls 2).waits = true ∧
      (after (steps ++ .start 2 :: third ++ [.look 2])).calls 2 = .returned none) := by
  intro before mid later between steps third
  obtain ⟨-, hlook, -, -, hpress, -⟩ := waits_interleaved
  have hfirst : .start 0 ∉ before := by decide
  have hwaits : ((after steps).calls 0).waits = true := rfl
  have hfew : (accepted steps).length < 2 ^ 64 := by decide
  have hfound := (hlook before 0 between hfirst hwaits hfew).2.1 5
  have hwaits1 : ((after (before ++ .start 0 :: mid)).calls 1).waits = true := rfl
  have hother := hpress (before ++ .start 0 :: mid) 5 later 1 hwaits1 (by decide) (by decide)
    (by decide)
  have hwaits2 : ((after (steps ++ .start 2 :: third)).calls 2).waits = true := rfl
  have hclosed := (hlook steps 2 third (by decide) hwaits2 (by decide)).1
  exact ⟨⟨hfirst, hwaits, hfew, hfound.mpr ⟨by decide, by decide⟩⟩, ⟨hwaits1, hother⟩, hwaits2,
    hclosed.mpr (by decide)⟩

end PadScene

end Chip8
