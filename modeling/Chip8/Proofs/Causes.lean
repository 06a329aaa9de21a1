import Chip8.Proofs.Bounds
import Chip8.Proofs.Faults

set_option autoImplicit false

/-! # The causes of faults

A list of everything that a program can do wrong, by the numbers in the word at the program counter
and in the registers, and not by way of the decoder (`Cause`, `FaultCause`). A cycle of a machine
that has come from a reset is at fault exactly if one of these holds, and then with just that cause
(`fault_iff_cause`): the causes are complete, because an instruction leads back to its word, and
sound, because each of the words is read as the instruction that it is meant for. -/

namespace Chip8

open Instruction (decode)

namespace Machine

/-- What the instruction with the word `w` finds wrong when the registers are `r`. -/
inductive Cause (r : Registers) (w : Word) : FaultKind → Prop where
  /-- The word 00EE with the call stack empty. -/
  | ret (hword : w.toNat = 0x00ee) (hsp : r.sp = 0) : Cause r w .stackUnderflow
  /-- A word 2NNN with the call stack full. -/
  | call (hword : w.toNat / 0x1000 = 0x2) (hsp : r.sp = 16) : Cause r w .stackOverflow
  /-- A word DXYN with less than N bytes left from the index register on. -/
  | draw (hword : w.toNat / 0x1000 = 0xd) (hi : 4096 < r.i.toNat + w.toNat % 0x10) :
    Cause r w (.addressOutOfRange (max r.i.toNat 4096))
  /-- A word FX33 with less than three bytes left from the index register on. -/
  | storeBcd (hword : w.toNat / 0x1000 = 0xf ∧ w.toNat % 0x100 = 0x33)
    (hi : 4096 < r.i.toNat + 3) : Cause r w (.addressOutOfRange (max r.i.toNat 4096))
  /-- A word FX55 or FX65 with less than X + 1 bytes left from the index register on. -/
  | block (hword : w.toNat / 0x1000 = 0xf ∧ (w.toNat % 0x100 = 0x55 ∨ w.toNat % 0x100 = 0x65))
    (hi : 4096 < r.i.toNat + w.toNat / 0x100 % 0x10 + 1) :
    Cause r w (.addressOutOfRange (max r.i.toNat 4096))

/-- The causes leave nothing out. -/
theorem cause_of_objection {r : Registers} {w : Word} {kind : FaultKind} (hdepth : r.sp ≤ 16)
    (h : objection r (decode w) = some kind) : Cause r w kind := by
  -- what is read leads back to the word, operands included
  have hw := congrArg UInt16.toNat (Instruction.encode_decode w)
  generalize decode w = i at h hw
  cases i with
  | ret =>
    simp only [objection] at h
    split at h <;> cases h
    next hsp => exact .ret hw.symm hsp
  | call addr =>
    simp only [objection] at h
    split at h <;> cases h
    next hsp =>
      have hfull : 16 ≤ r.sp := Nat.not_lt.mp hsp
      simp only [Instruction.encode, Word.toNat_ofAddress] at hw
      exact .call (by omega) (by omega)
  | draw x y n =>
    obtain ⟨hi, rfl⟩ := Memory.overrun_eq_some_iff.mp h
    simp only [Instruction.encode, Word.toNat_ofDigits] at hw
    exact .draw (by omega) (by omega)
  | storeBcd x =>
    obtain ⟨hi, rfl⟩ := Memory.overrun_eq_some_iff.mp h
    simp only [Instruction.encode, Word.toNat_ofImmediate, UInt8.reduceToNat] at hw
    exact .storeBcd ⟨by omega, by omega⟩ hi
  | storeRegs x | loadRegs x =>
    obtain ⟨hi, rfl⟩ := Memory.overrun_eq_some_iff.mp h
    simp only [Instruction.encode, Word.toNat_ofImmediate, UInt8.reduceToNat] at hw
    exact .block ⟨by omega, by omega⟩ (by omega)
  | _ => cases h

/-- Each of the causes is one. -/
theorem objection_of_cause {r : Registers} {w : Word} {kind : FaultKind} (h : Cause r w kind) :
    objection r (decode w) = some kind := by
  cases h with
  | ret hword hsp =>
    obtain rfl : w = 0x00ee := UInt16.toNat_inj.1 hword
    exact if_pos hsp
  | call hword hsp =>
    rw [Instruction.decode_call hword]
    exact if_neg (by rw [hsp]; exact Nat.lt_irrefl 16)
  | draw hword hi =>
    rw [Instruction.decode_draw hword]
    exact Memory.overrun_eq_some_iff.mpr ⟨hi, rfl⟩
  | storeBcd hword hi =>
    have hnn : w.nn = 0x33 := Word.nn_eq hword.2
    rw [Instruction.decode_misc hword.1, Instruction.decodeMisc, hnn]
    exact Memory.overrun_eq_some_iff.mpr ⟨hi, rfl⟩
  | block hword hi =>
    rw [Instruction.decode_misc hword.1, Instruction.decodeMisc]
    rcases hword.2 with hlow | hlow
    · have hnn : w.nn = 0x55 := Word.nn_eq hlow
      rw [hnn]
      exact Memory.overrun_eq_some_iff.mpr ⟨hi, rfl⟩
    · have hnn : w.nn = 0x65 := Word.nn_eq hlow
      rw [hnn]
      exact Memory.overrun_eq_some_iff.mpr ⟨hi, rfl⟩

/-- What the next cycle of the machine `m` is at fault with while the machine is running: the cause,
    and the word at fault if there is one. -/
inductive FaultCause (m : Machine) : FaultKind → Option Word → Prop where
  /-- The word at the program counter reaches beyond memory. -/
  | fetch (hfetch : 4096 < m.registers.pc.toNat + 2) :
    FaultCause m (.addressOutOfRange (max m.registers.pc.toNat 4096)) none
  /-- The word at the program counter is at fault. -/
  | word {kind : FaultKind} (hfetch : m.registers.pc.toNat + 2 ≤ 4096)
    (hcause : Cause m.registers m.wordAtPc kind) : FaultCause m kind (some m.wordAtPc)

theorem complaint_eq_some_iff {m : Machine} (hrun : m.activity = .running)
    (hdepth : m.registers.sp ≤ 16) {kind : FaultKind} {opcode : Option Word} :
    m.complaint = some (kind, opcode) ↔ FaultCause m kind opcode := by
  unfold complaint
  rw [hrun]
  cases hfetch : Memory.overrun m.registers.pc 2 with
  | some kind' =>
    obtain ⟨hbeyond, rfl⟩ := Memory.overrun_eq_some_iff.mp hfetch
    constructor
    · intro h
      cases h
      exact .fetch hbeyond
    · rintro (_ | ⟨hwithin, _⟩)
      · rfl
      · omega
  | none =>
    have hwithin := Memory.overrun_eq_none_iff.mp hfetch
    constructor
    · intro h
      obtain ⟨kind, hobjection, hsame⟩ := Option.map_eq_some_iff.1 h
      cases hsame
      exact .word hwithin (cause_of_objection hdepth hobjection)
    · rintro (hbeyond | ⟨_, hcause⟩)
      · exact absurd hbeyond (Nat.not_lt.mpr hwithin)
      · rw [objection_of_cause hcause]
        rfl

theorem exists_fault_iff {m : Machine} {keys : Keypad} (hrun : m.activity = .running)
    (hdepth : m.registers.sp ≤ 16) {kind : FaultKind} {opcode : Option Word} :
    (∃ fault, (m.step keys).fault = some fault ∧ fault.kind = kind ∧ fault.opcode = opcode) ↔
      FaultCause m kind opcode := by
  rw [← complaint_eq_some_iff hrun hdepth, fault_step]
  constructor
  · rintro ⟨fault, hfault, rfl, rfl⟩
    obtain ⟨c, hc, rfl⟩ := Option.map_eq_some_iff.1 hfault
    exact hc
  · intro hc
    exact ⟨m.report (kind, opcode), by rw [hc]; rfl, rfl, rfl⟩

/-- All that can be wrong with drawing an empty sprite is where the index register points. -/
theorem FaultCause.beyond_of_empty {m : Machine} {kind : FaultKind} {opcode : Option Word}
    (h : FaultCause m kind opcode) (hfetch : m.registers.pc.toNat + 2 ≤ 4096)
    (hword : m.wordAtPc.toNat / 0x1000 = 0xd) (hempty : m.wordAtPc.toNat % 0x10 = 0) :
    4096 < m.registers.i.toNat := by
  cases h with
  | fetch hbeyond => omega
  | word _ hcause =>
    cases hcause with
    | ret hword' _ => omega
    | call hword' _ => omega
    | draw _ hi => rwa [hempty, Nat.add_zero] at hi
    | storeBcd hword' _ | block hword' _ => omega

/-- **A cycle is at fault exactly for a cause.** A machine that waits for a key never is. A running
    one is at fault iff there is a cause for it, and then with that cause and that word, whatever
    keys are held. In particular an empty sprite may be drawn from the top of memory, but not from
    beyond it. -/
theorem fault_iff_cause (dialect : Dialect) (seed : Seed) (acts : List Act) (keys : Keypad) :
    let m := (fresh dialect seed).after acts
    (∀ x, m.activity = .awaitingKey x → (m.step keys).fault = none) ∧
    (m.activity = .running →
      (∀ kind opcode, (∃ fault, (m.step keys).fault = some fault ∧ fault.kind = kind ∧
        fault.opcode = opcode) ↔ FaultCause m kind opcode) ∧
      (m.registers.pc.toNat + 2 ≤ 4096 → m.wordAtPc.toNat / 0x1000 = 0xd →
        m.wordAtPc.toNat % 0x10 = 0 →
        ((m.step keys).fault = none ↔ m.registers.i.toNat ≤ 4096))) := by
  intro m
  have hdepth : m.registers.sp ≤ 16 := (inBounds_after_fresh dialect seed acts).depth_le
  refine ⟨fun x hwait => ?_, fun hrun => ⟨fun kind opcode => exists_fault_iff hrun hdepth,
    fun hfetch hword hempty => ?_⟩⟩
  · rw [fault_step, complaint, hwait]
    rfl
  · constructor
    · intro hnone
      refine Nat.le_of_not_lt fun hbeyond => ?_
      have hcause := FaultCause.word hfetch (.draw hword (Nat.lt_add_right _ hbeyond))
      obtain ⟨fault, hfault, -⟩ := (exists_fault_iff hrun hdepth).mpr hcause
      cases hnone.symm.trans hfault
    · intro hi
      cases hfault : (m.step keys).fault with
      | none => rfl
      | some fault =>
        have hcause := (exists_fault_iff hrun hdepth).mp ⟨fault, hfault, rfl, rfl⟩
        exact absurd (hcause.beyond_of_empty hfetch hword hempty) (Nat.not_lt.mpr hi)

/-- A program that moves the index register to the top of memory and draws an empty sprite there,
    and then moves it one further and does so again. -/
def emptySprites : Act :=
  .load (.ofBytes [0xaf, 0xff, 0x60, 0x01, 0xf0, 0x1e, 0xd0, 0x00, 0xf0, 0x1e, 0xd0, 0x00])

/-- The first of the two sprites is drawn, and the second is a fault. -/
theorem emptySprites_at_top_and_beyond :
    let acts (count : Nat) : List Act := emptySprites :: List.replicate count (.step .idle)
    (((fresh {} 0).after (acts 3)).step .idle).fault = none ∧
    ∃ fault, (((fresh {} 0).after (acts 5)).step .idle).fault = some fault ∧
      fault.kind = .addressOutOfRange 0x1001 ∧ fault.opcode = some 0xd000 := by
  intro acts
  have htop := (fault_iff_cause {} 0 (acts 3) .idle).2
  have hbeyond := (fault_iff_cause {} 0 (acts 5) .idle).2
  generalize hm : (fresh {} 0).after (acts 3) = m at htop ⊢
  generalize hm' : (fresh {} 0).after (acts 5) = m' at hbeyond ⊢
  obtain ⟨⟨hrun, hpc, hword, hi⟩, hrun', hpc', hword', hi'⟩ :
      (m.activity = .running ∧ m.registers.pc = 0x206 ∧ m.wordAtPc = 0xd000 ∧
        m.registers.i = 0x1000) ∧
      (m'.activity = .running ∧ m'.registers.pc = 0x20a ∧ m'.wordAtPc = 0xd000 ∧
        m'.registers.i = 0x1001) := by
    subst hm hm'
    decide +kernel
  constructor
  · refine ((htop hrun).2 ?_ ?_ ?_).mpr ?_ <;> simp only [hpc, hword, hi] <;> decide
  · refine ((hbeyond hrun').1 _ _).mpr ?_
    have hcause : Cause m'.registers m'.wordAtPc
        (.addressOutOfRange (max m'.registers.i.toNat 4096)) :=
      .draw (by rw [hword']; rfl) (by rw [hword', hi']; decide)
    have hfault := FaultCause.word (by rw [hpc']; decide) hcause
    rwa [hword', hi'] at hfault

end Machine

end Chip8
