import Chip8.Proofs.Atomicity
import Chip8.Proofs.SideBySide
import Chip8.Proofs.Ticks

/-! # The sound timer — heard outside, and never asked

    The sound timer runs down with the ticks, and one instruction sets it; none reads it.
    So two machines that differ there only go on alike, whatever is done to both, until the
    timer is set: from then on nothing is left of the difference. -/

namespace Chip8.Machine

/-- The machine with another value in the sound timer. -/
def withSound (m : Machine) (sound : Byte) : Machine :=
  { m with registers := { m.registers with sound } }

/-- Machines that are equal but for the sound timers. -/
def SoundAlike (m m' : Machine) : Prop := m' = m.withSound m'.registers.sound

theorem soundAlike_withSound (m : Machine) (sound : Byte) : m.SoundAlike (m.withSound sound) := rfl

/-- An instruction that uses no timer leaves the delay timer alone. -/
theorem delay_execute (m : Machine) {i : Instruction} (hi : i.usesTimer = false) :
    (m.execute i).2.registers.delay = m.registers.delay := by
  have hself := execute_withTimers m hi m.registers.delay m.registers.sound
  rw [withTimers_self] at hself
  rw [hself]
  rfl

/-- An instruction does the same whatever the sound timer shows, and leaves it as it is
    unless it sets it. -/
theorem execute_withSound (m : Machine) (sound : Byte) (i : Instruction) :
    SameAnswer SoundAlike (m.execute i) ((m.withSound sound).execute i) := by
  cases hi : i.usesTimer with
  | false =>
      have hother : (m.withSound sound).execute i =
          ((m.execute i).1, (m.execute i).2.withSound sound) := by
        calc (m.withSound sound).execute i
            = ((m.execute i).1, (m.execute i).2.withTimers m.registers.delay sound) :=
              execute_withTimers m hi m.registers.delay sound
          _ = ((m.execute i).1, (m.execute i).2.withSound sound) := by
              rw [← delay_execute m hi]
              rfl
      rw [hother]
      exact ⟨rfl, soundAlike_withSound _ sound⟩
  | true =>
      cases i with
      | loadDelay x => exact ⟨rfl, rfl⟩
      | setDelay x => exact ⟨rfl, rfl⟩
      | setSound x => exact ⟨rfl, rfl⟩
      | _ => cases hi

theorem sideBySide_soundAlike : SideBySide SoundAlike where
  pc h := by
    rw [h]
    rfl
  memory h := by
    rw [h]
    rfl
  execute h i := by
    rw [h]
    exact execute_withSound _ _ i
  goTo h pc := by
    rw [h]
    rfl
  tick h := by
    rw [h]
    rfl
  handle h e := by
    rw [h]
    rfl

/-- Once the timer is set on both, the machines are the same. -/
theorem SoundAlike.act_eq_of_setSound {m m' : Machine} (h : m.SoundAlike m') {a : Action}
    {x : Byte} (ha : m.executes a = some (.setSound x)) : m.act a = m'.act a := by
  have ha' : m'.executes a = some (.setSound x) := by
    rw [← sideBySide_soundAlike.executes_eq h, ha]
  rw [act_eq_perform ha, act_eq_perform ha', h]
  rfl

/-- **THE SOUND TIMER CHANGES NOTHING**: machines that are equal but for the sound timers stay
    so through any actions in a row, the same for both.  At every point both fetch the same,
    both keypads are the same, and every action has the same outcome on both; and from an
    action that executes an instruction to set the sound timer on they are the same machine,
    whatever follows. -/
theorem sound_never_asked {m m' : Machine} (h : m.SoundAlike m') (actions : List Action) :
    (m.after actions).SoundAlike (m'.after actions) ∧
    (m.after actions).fetch = (m'.after actions).fetch ∧
    (m.after actions).keypad = (m'.after actions).keypad ∧
    (∀ a, ((m.after actions).act a).1 = ((m'.after actions).act a).1) ∧
    ∀ a x, (m.after actions).executes a = some (.setSound x) →
      ∀ rest, m.after (actions ++ a :: rest) = m'.after (actions ++ a :: rest) := by
  have hafter := sideBySide_soundAlike.after h actions
  refine ⟨hafter, sideBySide_soundAlike.fetch_eq hafter, ?_, ?_, ?_⟩
  · rw [hafter]
    rfl
  · intro a
    exact (sideBySide_soundAlike.act hafter a).1
  · intro a x ha rest
    rw [after_append, after_append, Machine.after, Machine.after, hafter.act_eq_of_setSound ha]

/-- One timer runs out and the other does not, a wait fails on both, and setting the timer
    makes them the same. -/
theorem sound_never_asked_until_set :
    let m := idle .absent
    let m' := m.withSound 5
    let actions : List Action := [.tick, .perform (.loadByte 1 9), .perform (.loadKey 2)]
    m.SoundAlike m' ∧ m.after actions ≠ m'.after actions ∧
      (m.after actions).executes (.perform (.setSound 1)) = some (.setSound 1) ∧
      m.after (actions ++ [.perform (.setSound 1), .tick]) =
        m'.after (actions ++ [.perform (.setSound 1), .tick]) := by
  intro m m' actions
  have h : m.SoundAlike m' := soundAlike_withSound m 5
  obtain ⟨-, -, -, -, hset⟩ := sound_never_asked h actions
  refine ⟨h, ?_, rfl, hset (.perform (.setSound 1)) 1 rfl [.tick]⟩
  intro hsame
  have hout : (m.after actions).registers.sound = 0 := rfl
  have hrunning : (m'.after actions).registers.sound = 5 - 1 := rfl
  rw [hsame, hrunning] at hout
  exact absurd hout (by decide)

end Chip8.Machine
