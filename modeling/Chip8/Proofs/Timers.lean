import Chip8.Proofs.Aside

set_option autoImplicit false

/-! # The timers over a history

Each timer has one instruction that sets it, and ticks count it down; nothing else moves it, a cycle
at fault included (`timer_act`). So after a history a timer is what the history has last set it to,
less the ticks since (`timer_after`), and the instruction that reads the delay timer gets just that
(`timers_count_down_from_last_setting`). -/

namespace Chip8

/-- The two timers. -/
inductive Timer where
  | delay
  | sound

def Registers.timer (r : Registers) : Timer → UInt8
  | .delay => r.delay
  | .sound => r.sound

/-- The register from which an instruction sets a timer, if it does. -/
def Instruction.sets : Instruction → Timer → Option (Fin 16)
  | .setDelay x, .delay => some x
  | .setSound x, .sound => some x
  | _, _ => none

namespace Machine

def Aside.timer (a : Aside) : Timer → UInt8
  | .delay => a.delay
  | .sound => a.sound

/-- The value that an act sets a timer to, if it does. -/
def setTo (m : Machine) (t : Timer) (a : Act) : Option UInt8 :=
  ((m.completed a).bind (·.sets t)).map m.v

/-- The value that a history has last set a timer to, and the acts since. -/
def lastSet (m : Machine) (t : Timer) : List Act → Option (UInt8 × List Act)
  | [] => none
  | a :: rest => ((m.act a).lastSet t rest).or ((m.setTo t a).map fun value => (value, rest))

/-- What is left of the value that a history has last set a timer to, after the ticks since. It is
    zero if the history has not set the timer. -/
def timeLeft (m : Machine) (t : Timer) (acts : List Act) : Nat :=
  match m.lastSet t acts with
  | some (value, since) => value.toNat - since.countP Act.isTick
  | none => 0

/-- A timer moves only when it is set and when it ticks. -/
theorem timer_act (m : Machine) (t : Timer) (a : Act) :
    (m.act a).registers.timer t = (m.setTo t a).getD
      (if a.isTick then Registers.countDown (m.registers.timer t) else m.registers.timer t) := by
  have htimer : (m.act a).registers.timer t = (m.aside.acted m a).timer t := by
    rw [← aside_act]
    cases t <;> rfl
  rw [htimer]
  cases a with
  | load source => cases t <;> rfl
  | tick => cases t <;> rfl
  | step keys =>
    simp only [Aside.acted, setTo]
    cases m.completed (.step keys) with
    | none => cases t <;> rfl
    | some i => cases i <;> cases t <;> rfl

/-- A history leaves a timer at what it has last set it to less the ticks since, and a timer that it
    has not set at what it was less all its ticks. -/
theorem timer_after (m : Machine) (t : Timer) (acts : List Act) :
    ((m.after acts).registers.timer t).toNat =
      match m.lastSet t acts with
      | some (value, since) => value.toNat - since.countP Act.isTick
      | none => (m.registers.timer t).toNat - acts.countP Act.isTick := by
  induction acts generalizing m with
  | nil => rfl
  | cons a rest ih =>
    rw [after_cons, ih, lastSet]
    cases hlater : (m.act a).lastSet t rest with
    | some s => rfl
    | none =>
      rw [timer_act]
      cases hset : m.setTo t a with
      | some value => rfl
      | none =>
        by_cases htick : a.isTick
        · simp [htick, Registers.toNat_countDown, Nat.sub_sub, Nat.add_comm]
        · simp [htick]

/-! ## One timer and the other -/

/-- Whether an act sets a timer, and to what, does not hang on the timers. -/
theorem setTo_withTimers (m : Machine) (d s : UInt8) (t : Timer) (a : Act) :
    (m.withTimers d s).setTo t a = m.setTo t a := by
  cases a with
  | load source => rfl
  | tick => rfl
  | step keys =>
    simp only [setTo, withTimers_eq_withAside, m.completed_withAside _ keys keys]
    rfl

/-- What becomes of a timer in an act hangs on that timer alone. -/
theorem timer_act_withTimers (m : Machine) (t : Timer) (a : Act) {d s d' s' : UInt8}
    (hsame : (m.withTimers d s).registers.timer t = (m.withTimers d' s').registers.timer t) :
    ((m.withTimers d s).act a).registers.timer t =
      ((m.withTimers d' s').act a).registers.timer t := by
  rw [timer_act, timer_act, setTo_withTimers, setTo_withTimers, hsame]

/-- The instruction that reads the delay timer puts it into its register. -/
theorem v_of_getDelay {m : Machine} {keys : Keypad} {x : Fin 16}
    (hi : m.completed (.step keys) = some (.getDelay x)) :
    (m.step keys).machine.v x = m.registers.delay := by
  obtain ⟨-, -, flow, m', hexec, -, hstep⟩ := step_of_completed hi
  cases hexec
  rw [hstep]
  exact (Registers.v_setV _ _ _ _).trans (if_pos rfl)

/-- **Timers tell how long ago they were set.** After any history, a timer is the value that the
    history has last set it to less the ticks since, and zero if that is more or if the history has
    never set it. What becomes of a timer in the next act does not hang on what the other one is,
    and what the instruction FX07 puts into VX is what is left of the delay timer by this rule. -/
theorem timers_count_down_from_last_setting (dialect : Dialect) (seed : Seed) (acts : List Act) :
    let start := fresh dialect seed
    let m := start.after acts
    (∀ t, (m.registers.timer t).toNat = start.timeLeft t acts) ∧
    (∀ a d s s', ((m.withTimers d s).act a).registers.delay =
      ((m.withTimers d s').act a).registers.delay) ∧
    (∀ a d d' s, ((m.withTimers d s).act a).registers.sound =
      ((m.withTimers d' s).act a).registers.sound) ∧
    ∀ keys x, m.completed (.step keys) = some (.getDelay x) →
      ((m.step keys).machine.v x).toNat = start.timeLeft .delay acts := by
  intro start m
  have htimer : ∀ t, (m.registers.timer t).toNat = start.timeLeft t acts := by
    intro t
    have hzero : (start.registers.timer t).toNat = 0 := by cases t <;> rfl
    rw [timer_after, timeLeft, hzero]
    split
    · rfl
    · exact Nat.zero_sub _
  refine ⟨htimer, ?_, ?_, ?_⟩
  · intro a d s s'
    exact m.timer_act_withTimers .delay a rfl
  · intro a d d' s
    exact m.timer_act_withTimers .sound a rfl
  · intro keys x hi
    rw [v_of_getDelay hi]
    exact htimer .delay

/-- A program that sets the delay timer to five and the sound timer to one, and then reads the delay
    timer. -/
def setsAndReads : Act :=
  .load (.ofBytes [0x60, 0x05, 0x61, 0x01, 0xf0, 0x15, 0xf1, 0x18, 0xf2, 0x07])

/-- Two ticks and another load later it reads three, and the sound timer has stopped at zero. -/
theorem setsAndReads_reads_three :
    let acts : List Act := setsAndReads ::
      (List.replicate 4 (.step .idle) ++ [.tick, setsAndReads, .tick])
    let m := (fresh {} 0).after acts
    m.completed (.step .idle) = some (.getDelay 2) ∧
    (m.registers.timer .delay).toNat = 3 ∧ (m.registers.timer .sound).toNat = 0 ∧
    ((m.step .idle).machine.v 2).toNat = 3 := by
  intro acts
  obtain ⟨htimer, -, -, hread⟩ := timers_count_down_from_last_setting {} 0 acts
  obtain ⟨hi, hdelay, hsound⟩ : ((fresh {} 0).after acts).completed (.step .idle) =
      some (.getDelay 2) ∧ (fresh {} 0).timeLeft .delay acts = 3 ∧
      (fresh {} 0).timeLeft .sound acts = 0 := by
    decide +kernel
  exact ⟨hi, (htimer .delay).trans hdelay, (htimer .sound).trans hsound,
    (hread .idle 2 hi).trans hdelay⟩

end Machine

end Chip8
