import Chip8.Proofs.Bounds
import Mathlib.Data.List.Induction

set_option autoImplicit false

/-! # Waiting for a key

The instruction FX0A moves the program counter on and leaves the machine waiting. From then on a
cycle only looks for a key that has gone down, so as long as none does, a history of cycles and
ticks comes to its ticks and nothing else (`after_eq_ticks_of_waiting`). A wait can only come about
by that instruction, and nothing that happens during it moves the program counter
(`wait_cases`, `exists_start_of_wait`). So when a key goes down at last, the machine goes on with
the instruction after it. -/

namespace Chip8

open Instruction (decode)

/-- Does the act leave a waiting machine alone but for the timers? Cycles in which no key goes down
    do, and so do ticks. -/
def Act.Quiet : Act → Prop
  | .load _ => False
  | .step keys => keys.newlyPressed = none
  | .tick => True

namespace Machine

variable {m : Machine} {x : Fin 16}

/-! ## While no key goes down -/

theorem step_of_quiet (hwait : m.activity = .awaitingKey x) {keys : Keypad}
    (hkeys : keys.newlyPressed = none) : m.step keys = { machine := m } := by
  rw [step, hwait, hkeys]

theorem step_of_press (hwait : m.activity = .awaitingKey x) {keys : Keypad} {key : UInt8}
    (hkeys : keys.newlyPressed = some key) :
    m.step keys =
      { machine := { m with registers := m.registers.setV x key, activity := .running } } := by
  rw [step, hwait, hkeys]

theorem act_eq_ticks_of_waiting (hwait : m.activity = .awaitingKey x) {a : Act} (ha : a.Quiet) :
    m.act a = m.ticks (if a.isTick then 1 else 0) := by
  cases a with
  | load source => exact absurd ha id
  | step keys => exact (congrArg Step.machine (step_of_quiet hwait ha)).trans m.ticks_zero.symm
  | tick => exact (congrArg tick m.ticks_zero.symm).trans (m.ticks_succ 0).symm

/-- While no key goes down, a waiting machine only has its timers ticked. -/
theorem after_eq_ticks_of_waiting (hwait : m.activity = .awaitingKey x) {acts : List Act}
    (hacts : ∀ a ∈ acts, a.Quiet) : m.after acts = m.ticks (acts.countP Act.isTick) := by
  induction acts generalizing m with
  | nil => exact m.ticks_zero.symm
  | cons a rest ih =>
    have hfirst := act_eq_ticks_of_waiting hwait (hacts a List.mem_cons_self)
    have hrest (b : Act) (hb : b ∈ rest) : b.Quiet := hacts b (List.mem_cons_of_mem a hb)
    have hstill : (m.act a).activity = .awaitingKey x := by rw [hfirst]; exact hwait
    rw [after_cons, ih hstill hrest, hfirst, ticks_ticks, List.countP_cons, Nat.add_comm]

/-! ## How a wait begins -/

/-- A machine that waits after an act has been waiting before it, and no key has gone down in it, or
    the act has executed the instruction that makes it wait. -/
theorem wait_cases {a : Act} (hwait : (m.act a).activity = .awaitingKey x) :
    (m.activity = .awaitingKey x ∧ (∀ keys, a = .step keys → keys.newlyPressed = none) ∧
      (m.act a).registers.pc = m.registers.pc) ∨
    (∃ keys, a = .step keys ∧ m.activity = .running ∧ decode m.wordAtPc = .waitKey x ∧
      Memory.overrun m.registers.pc 2 = none ∧
      m.act a = { m with activity := .awaitingKey x }.goto (m.registers.pc + 2)) := by
  cases a with
  | load source =>
    obtain ⟨memory, hload⟩ := m.act_load_cases source
    rw [hload] at hwait ⊢
    refine .inl ⟨hwait, ?_, rfl⟩
    intro keys hstep
    cases hstep
  | tick =>
    refine .inl ⟨hwait, ?_, rfl⟩
    intro keys hstep
    cases hstep
  | step keys =>
    have hstep := m.stepped keys
    rw [act] at hwait ⊢
    generalize m.step keys = s at hstep hwait ⊢
    cases hstep with
    | waiting _ hkey =>
      refine .inl ⟨hwait, fun keys' h => ?_, rfl⟩
      cases h
      exact hkey
    | pressed _ _ => cases hwait
    | unfetched hrun _ | objected hrun _ _ => cases hrun.symm.trans hwait
    | executed hrun hfetch _ _ hcourse =>
      rcases hcourse.running_or_waits hrun with hstill | ⟨y, hi, rfl, rfl⟩
      · cases hstill.symm.trans hwait
      · cases hwait
        exact .inr ⟨keys, rfl, hrun, hi, hfetch, rfl⟩

/-- The word of the instruction that makes a machine wait is FX0A. -/
theorem toNat_of_decode_waitKey {w : Word} (h : decode w = .waitKey x) :
    w.toNat = 0xf00a + 0x100 * x.val := by
  have hw := congrArg UInt16.toNat (Instruction.encode_decode w)
  rw [h] at hw
  simp only [Instruction.encode, Word.toNat_ofImmediate, UInt8.reduceToNat] at hw
  omega

/-- A history that leaves a machine waiting has had it execute FX0A, and since then no key has gone
    down and the program counter has stayed right after that instruction. -/
theorem exists_start_of_wait {start : Machine} (hstart : start.InBounds)
    (hrun : start.activity = .running) {acts : List Act}
    (hwait : (start.after acts).activity = .awaitingKey x) :
    ∃ before keys between, acts = before ++ .step keys :: between ∧
      (start.after before).activity = .running ∧
      decode (start.after before).wordAtPc = .waitKey x ∧
      (start.after acts).registers.pc.toNat = (start.after before).registers.pc.toNat + 2 ∧
      (∀ keys', .step keys' ∈ between → keys'.newlyPressed = none) ∧
      ((∀ source, .load source ∉ between) →
        (start.after acts).memory = (start.after before).memory) := by
  induction acts using List.reverseRecOn with
  | nil => cases hrun.symm.trans hwait
  | append_singleton acts a ih =>
    have hlast : start.after (acts ++ [a]) = (start.after acts).act a := List.foldl_append
    rw [hlast] at hwait ⊢
    rcases wait_cases hwait with ⟨hbefore, hkeys, hpc⟩ | ⟨keys, rfl, hwas, hword, hfetch, hact⟩
    · -- the wait has begun earlier, and the last act is one more that it has lasted
      obtain ⟨before, keys, between, rfl, hwas, hword, hnext, hquiet, hmemory⟩ := ih hbefore
      refine ⟨before, keys, between ++ [a], by rw [List.append_assoc]; rfl, hwas, hword,
        hpc ▸ hnext, fun keys' hmem => ?_, fun hloads => ?_⟩
      · rcases List.mem_append.mp hmem with hmem | hmem
        · exact hquiet keys' hmem
        · exact hkeys keys' (List.mem_singleton.mp hmem).symm
      · have hquietly : a.Quiet := by
          cases a with
          | load source => exact hloads source (by simp)
          | step keys' => exact hkeys keys' rfl
          | tick => trivial
        rw [act_eq_ticks_of_waiting hbefore hquietly]
        exact hmemory fun source hmem => hloads source (List.mem_append_left _ hmem)
    · have hpc : ((start.after acts).registers.pc + 2).toNat = _ :=
        (hstart.after acts).toNat_pc_add (by decide)
      rw [hact]
      exact ⟨acts, keys, [], rfl, hwas, hword, hpc, by simp, fun _ => rfl⟩

/-! ## When a key goes down -/

/-- A running machine traces the word at the program counter before it executes it. -/
theorem head_log_step (hrun : m.activity = .running) (hpc : m.registers.pc.toNat + 2 ≤ 4096)
    (keys : Keypad) :
    (m.step keys).log.head? =
      some (.executing m.registers.pc (m.memory.wordAt m.registers.pc.toNat)) := by
  have hin : Memory.overrun m.registers.pc 2 = none := if_pos hpc
  have hstep := m.stepped keys
  generalize m.step keys = s at hstep ⊢
  cases hstep with
  | waiting hwait _ | pressed hwait _ => cases hrun.symm.trans hwait
  | unfetched _ hfetch => cases hin.symm.trans hfetch
  | objected _ _ _ | executed _ _ _ _ _ => rfl

/-- **A wait for a key suspends everything but the timers.** A machine that waits for a key to be
    put into VX has executed the word FX0A, and its program counter is right behind it. As long as
    no key goes down, whatever keys are held, no cycle is at fault and nothing changes but the
    timers, which have counted down by the ticks. The first cycle in which a key goes down puts it
    into VX and has the machine running again, and the next word that is fetched is the one behind
    FX0A. -/
theorem wait_suspends_all_but_timers (dialect : Dialect) (seed : Seed) (acts : List Act)
    (x : Fin 16) (hwait : ((fresh dialect seed).after acts).activity = .awaitingKey x) :
    let m := (fresh dialect seed).after acts
    (∃ before keys between, acts = before ++ .step keys :: between ∧
      let m₀ := (fresh dialect seed).after before
      m₀.activity = .running ∧ m₀.wordAtPc.toNat = 0xf00a + 0x100 * x.val ∧
      m.registers.pc.toNat = m₀.registers.pc.toNat + 2 ∧
      (∀ keys', .step keys' ∈ between → keys'.newlyPressed = none) ∧
      ((∀ source, .load source ∉ between) → m.memory = m₀.memory)) ∧
    ∀ later : List Act, (∀ a ∈ later, a.Quiet) →
      let w := m.after later
      w = { m with registers :=
            { m.registers with delay := w.registers.delay, sound := w.registers.sound } } ∧
      w.registers.delay.toNat = m.registers.delay.toNat - later.countP Act.isTick ∧
      w.registers.sound.toNat = m.registers.sound.toNat - later.countP Act.isTick ∧
      (∀ keys, (w.step keys).fault = none) ∧
      ∀ keys k, keys.newlyPressed = some k →
        (w.step keys).machine =
          { w with registers := w.registers.setV x k, activity := .running } ∧
        ∀ keys', m.registers.pc.toNat + 2 ≤ 4096 →
          ((w.step keys).machine.step keys').log.head? =
            some (.executing m.registers.pc (m.memory.wordAt m.registers.pc.toNat)) := by
  intro m
  have hbounds := fresh_inBounds dialect seed
  refine ⟨?_, ?_⟩
  · obtain ⟨before, keys, between, hacts, hrun, hword, hrest⟩ :=
      exists_start_of_wait hbounds rfl hwait
    exact ⟨before, keys, between, hacts, hrun, toNat_of_decode_waitKey hword, hrest⟩
  · intro later hquiet w
    have hw : w = m.ticks (later.countP Act.isTick) := after_eq_ticks_of_waiting hwait hquiet
    have hstill : w.activity = .awaitingKey x := by rw [hw]; exact hwait
    have hdelay : w.registers.delay =
        Registers.countDownBy m.registers.delay (later.countP Act.isTick) := by rw [hw]; rfl
    have hsound : w.registers.sound =
        Registers.countDownBy m.registers.sound (later.countP Act.isTick) := by rw [hw]; rfl
    refine ⟨?_, ?_, ?_, ?_, ?_⟩
    · rw [hdelay, hsound, hw]
      rfl
    · rw [hdelay, Registers.toNat_countDownBy]
    · rw [hsound, Registers.toNat_countDownBy]
    · intro keys
      cases hkeys : keys.newlyPressed with
      | none => rw [step_of_quiet hstill hkeys]
      | some k => rw [step_of_press hstill hkeys]
    · intro keys k hpress
      have hresumed := step_of_press hstill hpress
      have hrunning : (w.step keys).machine.activity = .running := by rw [hresumed]
      have hpc : (w.step keys).machine.registers.pc = m.registers.pc := by rw [hresumed, hw]; rfl
      have hmemory : (w.step keys).machine.memory = m.memory := by rw [hresumed, hw]; rfl
      refine ⟨by rw [hresumed], ?_⟩
      intro keys' hroom
      rw [head_log_step hrunning (by rw [hpc]; exact hroom), hpc, hmemory]

/-- A program that waits at once for a key to be put into V2. -/
def waitAtOnce : List Act := [.load (.ofBytes [0xf2, 0x0a]), .step .idle]

theorem waitAtOnce_waits : ((fresh {} 0).after waitAtOnce).activity = .awaitingKey 2 := by
  decide +kernel

/-- Holding the key 5 does not end a wait, and a press of the key 9 does, two ticks later. -/
theorem waitAtOnce_takes_press :
    let m := (fresh {} 0).after waitAtOnce
    let held : Keypad := { held := Vector.ofFn fun key => key == 5 }
    let later : List Act := [.step held, .tick, .step held, .tick]
    m.activity = .awaitingKey 2 ∧ (∀ a ∈ later, a.Quiet) ∧
    ((m.after later).step held).fault = none ∧
    ((m.after later).step { held with newlyPressed := some 9 }).machine =
      { m.after later with
        registers := (m.after later).registers.setV 2 9, activity := .running } := by
  intro m held later
  have hquiet : ∀ a ∈ later, a.Quiet := by simp [later, held, Act.Quiet]
  obtain ⟨-, hlater⟩ := wait_suspends_all_but_timers {} 0 waitAtOnce 2 waitAtOnce_waits
  obtain ⟨-, -, -, hfault, hpress⟩ := hlater later hquiet
  exact ⟨waitAtOnce_waits, hquiet, hfault held,
    (hpress { held with newlyPressed := some 9 } 9 rfl).1⟩

end Machine

end Chip8
