import Chip8.Proofs.History

set_option autoImplicit false

/-! # Faults

Whether a cycle is at fault, and with what, can be told from the machine alone: from its activity,
its program counter, its call stack, its index register and the word at the program counter, and not
from the keypad or the timers (`fault_step`). A cycle at fault leaves the machine as it was, so the
same fault comes up again for as long as nothing but the timers moves
(`after_eq_withTimers_of_complaint`). -/

namespace Chip8

open Instruction (decode)

namespace Machine

/-! ## The complaint -/

/-- What the next cycle is at fault with, if it is: the cause and the word at fault, which is
    missing if there is no word to be had. -/
def complaint (m : Machine) : Option (FaultKind × Option Word) :=
  match m.activity with
  | .awaitingKey _ => none
  | .running =>
    match Memory.overrun m.registers.pc 2 with
    | some kind => some (kind, none)
    | none => (objection m.registers (decode m.wordAtPc)).map fun kind => (kind, some m.wordAtPc)

def report (m : Machine) (c : FaultKind × Option Word) : Fault :=
  { kind := c.1, opcode := c.2, registers := m.registers }

/-- A cycle is at fault exactly with what the machine has to complain about, whatever keys are
    held. -/
theorem fault_step (m : Machine) (keys : Keypad) :
    (m.step keys).fault = m.complaint.map m.report := by
  have hstep := m.stepped keys
  generalize m.step keys = s at hstep ⊢
  unfold complaint
  cases hstep with
  | waiting hwait _ => rw [hwait]; rfl
  | pressed hwait _ => rw [hwait]; rfl
  | unfetched hrun hfetch => rw [hrun, hfetch]; rfl
  | objected hrun hfetch hobjection => simp only [hrun, hfetch, hobjection]; rfl
  | executed hrun hfetch hobjection _ _ => simp only [hrun, hfetch, hobjection]; rfl

/-- A cycle at fault leaves the machine as it was. -/
theorem machine_step_of_fault {m : Machine} {keys : Keypad} {fault : Fault}
    (h : (m.step keys).fault = some fault) : (m.step keys).machine = m := by
  have hstep := m.stepped keys
  generalize m.step keys = s at hstep h ⊢
  cases hstep with
  | waiting _ _ => rfl
  | pressed _ _ => cases h
  | unfetched _ _ => rfl
  | objected _ _ _ => rfl
  | executed _ _ _ _ _ => cases h

/-- What a cycle completes does not hang on the keypad either. -/
theorem completed_step (m : Machine) (keys : Keypad) :
    m.completed (.step keys) =
      if m.activity = .running ∧ m.complaint = none then some (decode m.wordAtPc) else none := by
  simp only [completed, fault_step, Option.map_eq_none_iff]

theorem fault_of_complaint {m : Machine} {c : FaultKind × Option Word} (hc : m.complaint = some c)
    (keys : Keypad) : (m.step keys).fault = some (m.report c) := by
  rw [fault_step, hc]
  rfl

theorem machine_step_of_complaint {m : Machine} {c : FaultKind × Option Word}
    (hc : m.complaint = some c) (keys : Keypad) : (m.step keys).machine = m :=
  machine_step_of_fault (fault_of_complaint hc keys)

/-- A running machine completes an instruction unless it has something to complain about. -/
theorem completed_or_complaint {m : Machine} (hrun : m.activity = .running) (keys : Keypad) :
    m.completed (.step keys) = some (decode m.wordAtPc) ∨
      ∃ c, m.complaint = some c ∧ m.completed (.step keys) = none := by
  cases hc : m.complaint with
  | none => exact .inl ((m.completed_step keys).trans (if_pos ⟨hrun, hc⟩))
  | some c =>
    refine .inr ⟨c, rfl, ?_⟩
    rw [completed_step, if_neg (by simp [hc])]

/-- The word at fault is the word at the program counter, and is missing exactly if that word
    reaches beyond memory. -/
theorem opcode_of_complaint {m : Machine} {c : FaultKind × Option Word} (h : m.complaint = some c) :
    c.2 = if m.registers.pc.toNat + 2 ≤ Memory.size then some m.wordAtPc else none := by
  unfold complaint Memory.overrun at h
  split at h
  · cases h
  · by_cases hfetch : m.registers.pc.toNat + 2 ≤ Memory.size
    · rw [if_pos hfetch] at h ⊢
      obtain ⟨kind, _, rfl⟩ := Option.map_eq_some_iff.1 h
      rfl
    · rw [if_neg hfetch] at h ⊢
      cases h
      rfl

/-! ## Timers do not help -/

def withTimers (m : Machine) (delay sound : UInt8) : Machine :=
  { m with registers := { m.registers with delay, sound } }

@[simp] theorem withTimers_withTimers (m : Machine) (d s d' s' : UInt8) :
    (m.withTimers d s).withTimers d' s' = m.withTimers d' s' := rfl

theorem withTimers_self (m : Machine) :
    m.withTimers m.registers.delay m.registers.sound = m := rfl

theorem tick_eq_withTimers (m : Machine) :
    m.tick = m.withTimers (Registers.countDown m.registers.delay)
      (Registers.countDown m.registers.sound) := rfl

theorem objection_timers (r : Registers) (i : Instruction) (d s : UInt8) :
    objection { r with delay := d, sound := s } i = objection r i := by
  cases i <;> rfl

theorem complaint_withTimers (m : Machine) (d s : UInt8) :
    (m.withTimers d s).complaint = m.complaint := by
  have hobjection := objection_timers m.registers (decode m.wordAtPc) d s
  unfold complaint
  simp only [withTimers, wordAtPc] at hobjection ⊢
  rw [hobjection]

/-- While a machine has something to complain about, cycles and ticks move nothing but the
    timers. -/
theorem after_eq_withTimers_of_complaint {m : Machine} {c : FaultKind × Option Word}
    (hc : m.complaint = some c) {acts : List Act} (hacts : ∀ source, .load source ∉ acts) :
    ∃ delay sound, m.after acts = m.withTimers delay sound := by
  -- a cycle leaves the machine as it is, and a tick leaves it with the same complaint
  induction acts generalizing m with
  | nil => exact ⟨_, _, (withTimers_self m).symm⟩
  | cons a rest ih =>
    have hrest : ∀ source, Act.load source ∉ rest :=
      fun source hmem => hacts source (List.mem_cons_of_mem a hmem)
    cases a with
    | load source => exact absurd List.mem_cons_self (hacts source)
    | step keys =>
      rw [after_cons, act, machine_step_of_complaint hc]
      exact ih hc hrest
    | tick =>
      rw [after_cons, act, tick_eq_withTimers]
      obtain ⟨delay, sound, hafter⟩ := ih ((complaint_withTimers m _ _).trans hc) hrest
      exact ⟨delay, sound, by rw [hafter, withTimers_withTimers]⟩

/-! ## Atomic and permanent -/

/-- **Faults are atomic and permanent.** A cycle at fault changes nothing whatsoever of the machine.
    Its report has the registers as they were, and the big-endian word at the program counter unless
    that word reaches beyond memory. However many cycles and ticks follow, with whatever keys held,
    nothing but the timers ever changes, and every cycle is at fault again with the same cause and
    the same word. -/
theorem fault_atomic_and_permanent (m : Machine) (keys : Keypad) (fault : Fault)
    (h : (m.step keys).fault = some fault) :
    (m.step keys).machine = m ∧
    fault.registers = m.registers ∧
    fault.opcode = (if m.registers.pc.toNat + 2 ≤ 4096 then
      some (UInt16.ofNat (256 * (m.memory.get m.registers.pc.toNat).toNat +
        (m.memory.get (m.registers.pc.toNat + 1)).toNat))
      else none) ∧
    ∀ later : List Act, (∀ source, .load source ∉ later) →
      (∃ delay sound, m.after later =
        { m with registers := { m.registers with delay := delay, sound := sound } }) ∧
      ∀ keys', ∃ fault', ((m.after later).step keys').fault = some fault' ∧
        fault'.kind = fault.kind ∧ fault'.opcode = fault.opcode := by
  have hmachine := machine_step_of_fault h
  rw [fault_step] at h
  obtain ⟨c, hc, rfl⟩ := Option.map_eq_some_iff.1 h
  refine ⟨hmachine, rfl, opcode_of_complaint hc, fun later hlater => ?_⟩
  obtain ⟨delay, sound, hafter⟩ := after_eq_withTimers_of_complaint hc hlater
  refine ⟨⟨delay, sound, hafter⟩, fun keys' => ⟨(m.withTimers delay sound).report c, ?_, rfl, rfl⟩⟩
  rw [hafter, fault_step, complaint_withTimers, hc]
  rfl

/-- A machine with a program that returns at once, with the call stack empty. -/
def strayReturn : Machine := (fresh {} 0).after [.load (.ofBytes [0x00, 0xee])]

theorem fault_strayReturn (keys : Keypad) :
    (strayReturn.step keys).fault = some
      { kind := .stackUnderflow, opcode := some 0x00ee, registers := Registers.reset } := by
  have hword : strayReturn.wordAtPc = 0x00ee := by
    have hmemory : strayReturn.memory = Memory.fresh.store 0x200 [0x00, 0xee] := rfl
    have hpc : strayReturn.registers.pc.toNat = 0x200 := rfl
    rw [wordAtPc, Memory.wordAt, hmemory, hpc, Memory.get_store _ _ _ _ (by decide),
      Memory.get_store _ _ _ _ (by decide)]
    rfl
  have hcomplaint : strayReturn.complaint = some (.stackUnderflow, some 0x00ee) := by
    simp only [complaint, hword]
    rfl
  exact fault_of_complaint hcomplaint keys

/-- A stray return is at fault again after any cycles and ticks. -/
theorem strayReturn_stays_at_fault :
    (strayReturn.step .idle).fault = some
      { kind := .stackUnderflow, opcode := some 0x00ee, registers := Registers.reset } ∧
    (strayReturn.step .idle).machine = strayReturn ∧
    ∃ fault, ((strayReturn.after [.tick, .step .idle, .tick]).step .idle).fault = some fault ∧
      fault.kind = .stackUnderflow ∧ fault.opcode = some 0x00ee := by
  have h := fault_atomic_and_permanent strayReturn .idle _ (fault_strayReturn .idle)
  exact ⟨fault_strayReturn .idle, h.1, (h.2.2.2 [.tick, .step .idle, .tick] (by simp)).2 .idle⟩

end Machine

end Chip8
