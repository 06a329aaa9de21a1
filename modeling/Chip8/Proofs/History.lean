import Chip8.Proofs.Execution

set_option autoImplicit false

/-! # Histories

A machine is only ever loaded, stepped and ticked. A *history* is a list of such acts in any order,
whatever comes of each: a program may turn out too large, and a cycle may be at fault. What holds of
a machine and is kept by every act holds after every history (`after_induction`). Of a history one
can also tell which instructions it has completed (`completedIn`) and what came back from its acts
(`answers`). -/

namespace Chip8

open Instruction (decode)

/-- Something that is done with a machine. -/
inductive Act where
  | load (source : Source)
  | step (keys : Keypad)
  | tick

def Act.isTick : Act → Bool
  | .tick => true
  | .load _ | .step _ => false

namespace Machine

/-! ## Acts one after the other -/

/-- The machine after an act, whether or not the act succeeded. A loading that never comes to
    anything has changed nothing so far. -/
def act (m : Machine) : Act → Machine
  | .load source => (m.loadOutcome source).elim m (·.2)
  | .step keys => (m.step keys).machine
  | .tick => m.tick

/-- The machine after the acts of a history, first one first. -/
def after (m : Machine) (acts : List Act) : Machine := acts.foldl act m

@[simp] theorem after_nil (m : Machine) : m.after [] = m := rfl

@[simp] theorem after_cons (m : Machine) (a : Act) (acts : List Act) :
    m.after (a :: acts) = (m.act a).after acts := rfl

/-- What every act keeps is kept by a whole history. -/
theorem after_induction {P : Machine → Prop} (hact : ∀ m a, P m → P (m.act a)) {m : Machine}
    (hm : P m) (acts : List Act) : P (m.after acts) := by
  induction acts generalizing m with
  | nil => exact hm
  | cons a rest ih => exact ih (hact m a hm)

theorem act_load_cases (m : Machine) (source : Source) :
    ∃ memory, m.act (.load source) = { m with memory } := by
  simp only [act, loadOutcome, load]
  rcases m.memory.load source with _ | ⟨⟨e⟩ | ⟨size, memory⟩, left⟩
  · exact ⟨m.memory, rfl⟩
  · exact ⟨m.memory, rfl⟩
  · exact ⟨memory, rfl⟩

/-! ## What an act completes -/

/-- The instruction that an act completes: that of a cycle of a running machine, unless the cycle is
    at fault. -/
def completed (m : Machine) : Act → Option Instruction
  | .step keys =>
    if m.activity = .running ∧ (m.step keys).fault = none then some (decode m.wordAtPc) else none
  | .load _ | .tick => none

/-- The instructions that the acts of a history complete, first one first. -/
def completedIn (m : Machine) : List Act → List Instruction
  | [] => []
  | a :: rest => (m.completed a).toList ++ (m.act a).completedIn rest

variable {m : Machine} {keys : Keypad}

/-- A cycle that completes an instruction has executed it and moved the program counter on. -/
theorem step_of_completed {i : Instruction} (h : m.completed (.step keys) = some i) :
    m.activity = .running ∧ i = decode m.wordAtPc ∧
      ∃ flow m', m.execute keys i = (.ok flow, m') ∧ Course m i flow m' ∧
        m.step keys = { machine := m'.goto (flow.target m.registers.pc), log := m.logAtPc } := by
  simp only [completed] at h
  have hstep := m.stepped keys
  generalize m.step keys = s at hstep h ⊢
  cases hstep with
  | waiting hwait _ | pressed hwait _ => simp [hwait] at h
  | unfetched _ _ | objected _ _ _ => simp at h
  | executed hrun _ _ hexec hcourse =>
    rw [if_pos ⟨hrun, rfl⟩] at h
    cases h
    exact ⟨hrun, rfl, _, _, hexec, hcourse, rfl⟩

/-! ## What an act answers -/

/-- What comes back from an act. -/
inductive Answer where
  /-- The length of the program that has been loaded, or why it could not be. -/
  | loaded (result : Except LoadError Nat)
  /-- The fault of a cycle, if it was at fault. -/
  | cycled (fault : Option Fault)

/-- What comes back from an act, if anything does: nothing does from a tick, nor from a loading that
    never comes to anything. -/
def answer (m : Machine) : Act → Option Answer
  | .load source => (m.loadOutcome source).map (.loaded ·.1)
  | .step keys => some (.cycled (m.step keys).fault)
  | .tick => none

/-- What comes back from the acts of a history, first one first. -/
def answers (m : Machine) : List Act → List Answer
  | [] => []
  | a :: rest => (m.answer a).toList ++ (m.act a).answers rest

end Machine

end Chip8
