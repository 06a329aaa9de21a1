import Chip8.Proofs.Aside

set_option autoImplicit false

/-! # What a program can sense

The world outside reaches a machine in two ways: ticks move its timers, and every cycle is given a
keypad. A program takes notice of either only by four instructions, FX07, EX9E, EXA1 and FX0A. So
until one of the four is completed, a history is worth no more than what is left of it once all
ticks are dropped and all keypads are idle (`after_blind`), and two histories of which the same is
left cannot be told apart (`runs_agree_without_senses`). -/

namespace Chip8

open Instruction (decode)

/-- What is left of an act where nobody looks at the timers or at the keypad. -/
def Act.blind : Act → Option Act
  | .load source => some (.load source)
  | .step _ => some (.step .idle)
  | .tick => none

/-! ## All but the timers -/

/-- The register file with both timers run down. -/
def Registers.untimed (r : Registers) : Registers := { r with delay := 0, sound := 0 }

/-- The report with both timers run down. -/
def Fault.untimed (f : Fault) : Fault := { f with registers := f.registers.untimed }

namespace Machine

/-- The machine with both timers run down. -/
def untimed (m : Machine) : Machine := { m with registers := m.registers.untimed }

/-- The answer with both timers run down in the report. -/
def Answer.untimed : Answer → Answer
  | .loaded result => .loaded result
  | .cycled fault => .cycled (fault.map Fault.untimed)

variable {m m' : Machine}

theorem untimed_tick (m : Machine) : m.tick.untimed = m.untimed := rfl

theorem exists_withTimers (h : m'.untimed = m.untimed) : ∃ d s, m' = m.withTimers d s := by
  refine ⟨m'.registers.delay, m'.registers.sound, ?_⟩
  calc m' = m'.untimed.withTimers m'.registers.delay m'.registers.sound := rfl
    _ = m.untimed.withTimers m'.registers.delay m'.registers.sound := by rw [h]
    _ = m.withTimers m'.registers.delay m'.registers.sound := rfl

/-! ## Without looking -/

/-- A program that is loaded is the same whatever the timers are. -/
theorem load_of_untimed_eq (hsame : m'.untimed = m.untimed) (source : Source) :
    m'.answer (.load source) = m.answer (.load source) ∧
      (m'.act (.load source)).untimed = (m.act (.load source)).untimed := by
  obtain ⟨d, s, rfl⟩ := exists_withTimers hsame
  obtain ⟨memory, hload⟩ := m.act_load_cases source
  rw [withTimers_eq_withAside, answer_load_withAside, act_load_withAside, hload]
  exact ⟨rfl, rfl⟩

theorem untimed_withAside_executed (n m : Machine) (i : Instruction) (d s : UInt8) :
    (n.withAside (Aside.executed { m.aside with delay := d, sound := s } m i)).untimed =
      (n.withAside (m.aside.executed m i)).untimed := by
  cases i <;> rfl

/-- A running machine that completes no instruction that looks at the timers or at the keypad does
    the same whatever they are, and goes on running. -/
theorem step_of_untimed_eq (hsame : m'.untimed = m.untimed) (hrun : m.activity = .running)
    {keys : Keypad} (hsenses : ∀ i, m.completed (.step keys) = some i → i.senses = false)
    (keys' : Keypad) :
    (m'.step keys').fault.map Fault.untimed = (m.step keys).fault.map Fault.untimed ∧
      (m'.step keys').machine.untimed = (m.step keys).machine.untimed ∧
      (m.step keys).machine.activity = .running := by
  obtain ⟨d, s, rfl⟩ := exists_withTimers hsame
  refine ⟨?_, ?_⟩
  · rw [fault_step, fault_step, complaint_withTimers]
    cases m.complaint <;> rfl
  · rcases completed_or_complaint hrun keys with hi | ⟨c, hc, -⟩
    · obtain ⟨-, -, flow, m₁, -, hcourse, hstep⟩ := step_of_completed hi
      have hblind := hsenses _ hi
      have hother := machine_step_withAside hi { m.aside with delay := d, sound := s } keys'
        (by simp [hblind]) (fun _ => ⟨rfl, rfl⟩)
      have hself := machine_step_withAside hi m.aside keys
        (fun _ => ⟨rfl, rfl⟩) (fun _ => ⟨rfl, rfl⟩)
      constructor
      · calc ((m.withTimers d s).step keys').machine.untimed
          _ = ((m.step keys).machine.withAside (Aside.executed
                { m.aside with delay := d, sound := s } m (decode m.wordAtPc))).untimed := by
              rw [withTimers_eq_withAside, hother]
          _ = ((m.step keys).machine.withAside
                (m.aside.executed m (decode m.wordAtPc))).untimed :=
              untimed_withAside_executed _ m _ d s
          _ = (m.step keys).machine.untimed := by rw [← hself, withAside_aside]
      · rw [hstep]
        rcases hcourse.running_or_waits hrun with hstill | ⟨x, hi, -, -⟩
        · exact hstill
        · simp [hi, Instruction.senses] at hblind
    · have hc' : (m.withTimers d s).complaint = some c := (complaint_withTimers m d s).trans hc
      rw [machine_step_of_complaint hc, machine_step_of_complaint hc']
      exact ⟨rfl, hrun⟩

/-! ## Histories -/

/-- As long as no instruction looks at the timers or at the keypad, a history leaves everything but
    the timers as what is left of it without them does. -/
theorem after_blind {acts : List Act} (hsame : m'.untimed = m.untimed)
    (hrun : m.activity = .running) (hsenses : ∀ i ∈ m.completedIn acts, i.senses = false) :
    (m'.after (acts.filterMap Act.blind)).untimed = (m.after acts).untimed ∧
      (m'.answers (acts.filterMap Act.blind)).map Answer.untimed =
        (m.answers acts).map Answer.untimed := by
  induction acts generalizing m m' with
  | nil => exact ⟨hsame, rfl⟩
  | cons b rest ih =>
    have hrest : ∀ i ∈ (m.act b).completedIn rest, i.senses = false := by
      intro i hi
      exact hsenses i (List.mem_append_right _ hi)
    cases b with
    | tick => exact ih (hsame.trans m.untimed_tick.symm) hrun hrest
    | load source =>
      obtain ⟨hresult, hmachine⟩ := load_of_untimed_eq hsame source
      obtain ⟨memory, hload⟩ := m.act_load_cases source
      have hrun' : (m.act (.load source)).activity = .running := by rw [hload]; exact hrun
      obtain ⟨hafter, hanswers⟩ := ih hmachine hrun' hrest
      refine ⟨hafter, ?_⟩
      simp only [Act.blind, List.filterMap_cons, answers, List.map_append, hresult]
      exact congrArg _ hanswers
    | step keys =>
      have hfirst : ∀ i, m.completed (.step keys) = some i → i.senses = false := by
        intro i hi
        exact hsenses i (List.mem_append_left _ (by simp [hi]))
      obtain ⟨hfault, hmachine, hrun'⟩ := step_of_untimed_eq hsame hrun hfirst .idle
      obtain ⟨hafter, hanswers⟩ := ih hmachine hrun' hrest
      refine ⟨hafter, ?_⟩
      simp only [Act.blind, List.filterMap_cons, answers, answer, Option.toList_some,
        List.map_append, List.map_cons, List.map_nil, Answer.untimed, hfault]
      exact congrArg _ hanswers

/-- **The world outside reaches a program only through FX07, EX9E, EXA1 and FX0A.** Take two
    histories with the same loads and as many cycles between them, but with ticks wherever they like
    and with any keypads. As long as neither has completed one of the four instructions, the
    machines agree on everything but the timers, and so do the answers of their acts: the cycles
    that are at fault are the same, with the same cause, the same word and the same registers but
    for the timers. -/
theorem runs_agree_without_senses (dialect : Dialect) (seed : Seed) (acts acts' : List Act)
    (hsame : acts'.filterMap Act.blind = acts.filterMap Act.blind)
    (hsenses : ∀ i ∈ (fresh dialect seed).completedIn acts, i.senses = false)
    (hsenses' : ∀ i ∈ (fresh dialect seed).completedIn acts', i.senses = false) :
    let start := fresh dialect seed
    let m := start.after acts
    let m' := start.after acts'
    (m'.memory = m.memory ∧ m'.screen = m.screen ∧ m'.activity = m.activity ∧
      m'.random = m.random ∧ m'.registers.untimed = m.registers.untimed) ∧
    (start.answers acts').map Answer.untimed = (start.answers acts).map Answer.untimed := by
  intro start m m'
  have hstart : start.untimed = start.untimed := rfl
  obtain ⟨hafter, hanswers⟩ := after_blind hstart rfl hsenses
  obtain ⟨hafter', hanswers'⟩ := after_blind hstart rfl hsenses'
  rw [hsame] at hafter' hanswers'
  have hagree : m'.untimed = m.untimed := hafter'.symm.trans hafter
  obtain ⟨d, s, hm'⟩ := exists_withTimers hagree
  refine ⟨?_, hanswers'.symm.trans hanswers⟩
  rw [hm']
  exact ⟨rfl, rfl, rfl, rfl, rfl⟩

/-- A program that sets both timers, takes a random byte and returns with the call stack empty. -/
def setsTimers : Act :=
  .load (.ofBytes [0x63, 0x05, 0xf3, 0x15, 0xf3, 0x18, 0xc1, 0xff, 0x00, 0xee])

/-- It cannot tell whether the timers have been ticked since and which keys are held, and it is at
    fault in the end either way. -/
theorem setsTimers_in_two_worlds :
    let start := fresh {} 0
    let held : Keypad := { held := Vector.replicate 16 true, newlyPressed := some 7 }
    let acts : List Act := setsTimers :: List.replicate 5 (.step .idle)
    let acts' : List Act := setsTimers :: .tick ::
      (List.replicate 4 (.step held) ++ [.tick, .tick, .step held])
    acts'.filterMap Act.blind = acts.filterMap Act.blind ∧
    (∀ i ∈ start.completedIn acts, i.senses = false) ∧
    (∀ i ∈ start.completedIn acts', i.senses = false) ∧
    (start.after acts').registers.untimed = (start.after acts).registers.untimed ∧
    (start.answers acts').map Answer.untimed = (start.answers acts).map Answer.untimed ∧
    (start.after acts).registers.delay = 5 ∧ (start.after acts').registers.delay = 3 := by
  intro start held acts acts'
  obtain ⟨hsenses, hsenses', hdelay, hdelay'⟩ :
      (∀ i ∈ start.completedIn acts, i.senses = false) ∧
      (∀ i ∈ start.completedIn acts', i.senses = false) ∧
      (start.after acts).registers.delay = 5 ∧ (start.after acts').registers.delay = 3 := by
    decide +kernel
  obtain ⟨⟨-, -, -, -, hregisters⟩, hanswers⟩ :=
    runs_agree_without_senses {} 0 acts acts' rfl hsenses hsenses'
  exact ⟨rfl, hsenses, hsenses', hregisters, hanswers, hdelay, hdelay'⟩

end Machine

end Chip8
