import Chip8.Machine.Step

set_option autoImplicit false

/-! # What a cycle can do

The cycle of `Chip8.Machine.Step` looked at from outside, once, so that nothing else has to take an
instruction apart again. `objection` tells in advance, from the registers alone, what an instruction
will find wrong; an instruction that finds something wrong has changed nothing by then
(`execute_cases`). `Course` tells what a successful instruction does to the call stack and
where it leads. `Stepped` lists the five things that a cycle can come to, guards included
(`stepped`). -/

namespace Chip8

open Instruction (decode)

/-! ## Checked access -/

/-- What is wrong with an access to `len` bytes from `addr` on, if anything is. -/
def Memory.overrun (addr : UInt16) (len : Nat) : Option FaultKind :=
  if addr.toNat + len ≤ Memory.size then none
  else some (.addressOutOfRange (max addr.toNat Memory.size))

theorem Memory.overrun_eq_none_iff {addr : UInt16} {len : Nat} :
    Memory.overrun addr len = none ↔ addr.toNat + len ≤ Memory.size := by
  unfold Memory.overrun
  split <;> simp_all

theorem Memory.overrun_eq_some_iff {addr : UInt16} {len : Nat} {kind : FaultKind} :
    Memory.overrun addr len = some kind ↔
      4096 < addr.toNat + len ∧ kind = .addressOutOfRange (max addr.toNat 4096) := by
  unfold Memory.overrun
  split
  · next hwithin => exact ⟨nofun, fun hbeyond => absurd hwithin (Nat.not_le.mpr hbeyond.1)⟩
  · next hbeyond =>
    constructor
    · intro h
      cases h
      exact ⟨Nat.not_le.mp hbeyond, rfl⟩
    · rintro ⟨-, rfl⟩
      rfl

theorem Memory.check_eq (addr : UInt16) (len : Nat) :
    Memory.check addr len = (Memory.overrun addr len).elim (.ok ()) .error := by
  unfold Memory.check Memory.overrun
  split <;> rfl

theorem Memory.read_eq (m : Memory) (addr : UInt16) (len : Nat) :
    m.read addr len = (Memory.overrun addr len).elim
      (.ok ((List.range len).map fun k => m.get (addr.toNat + k))) .error := by
  rw [Memory.read, Memory.check_eq]
  cases Memory.overrun addr len <;> rfl

theorem Memory.write_eq (m : Memory) (addr : UInt16) (data : List UInt8) :
    m.write addr data = (Memory.overrun addr data.length).elim
      (.ok (m.store addr.toNat data)) .error := by
  rw [Memory.write, Memory.check_eq]
  cases Memory.overrun addr data.length <;> rfl

/-- The two bytes from `addr` on as a word, the high byte first. -/
def Memory.wordAt (m : Memory) (addr : Nat) : Word :=
  UInt16.ofNat (256 * (m.get addr).toNat + (m.get (addr + 1)).toNat)

theorem Memory.word_eq (m : Memory) (addr : UInt16) :
    m.word addr = (Memory.overrun addr 2).elim (.ok (m.wordAt addr.toNat)) .error := by
  rw [Memory.word, Memory.check_eq]
  cases Memory.overrun addr 2 <;> rfl

theorem Memory.word_eq_ok_iff {m : Memory} {addr : UInt16} {w : Word} :
    m.word addr = .ok w ↔ Memory.overrun addr 2 = none ∧ m.wordAt addr.toNat = w := by
  rw [Memory.word_eq]
  cases Memory.overrun addr 2 <;> simp

namespace Machine

/-! ## Instructions at fault -/

/-- What an instruction finds wrong when the registers are `r`, if anything. -/
def objection (r : Registers) : Instruction → Option FaultKind
  | .ret => if r.sp = 0 then some .stackUnderflow else none
  | .call _ => if r.sp < stackDepth then none else some .stackOverflow
  | .draw _ _ n => Memory.overrun r.i n.val
  | .storeBcd _ => Memory.overrun r.i 3
  | .storeRegs x => Memory.overrun r.i (x.val + 1)
  | .loadRegs x => Memory.overrun r.i (x.val + 1)
  | _ => none

/-- Drawing fails with the reading of the sprite, before the first row is on the screen. -/
theorem draw_cases (m : Machine) (x y n : Fin 16) :
    (∃ kind, Memory.overrun m.registers.i n.val = some kind ∧ m.draw x y n = (.error kind, m)) ∨
      (Memory.overrun m.registers.i n.val = none ∧
        ∃ hit screen, m.draw x y n =
          (.ok .next, { m with screen, registers := m.registers.setFlag hit })) := by
  unfold draw
  rw [Memory.read_eq]
  cases hover : Memory.overrun m.registers.i n.val with
  | some kind => exact .inl ⟨kind, rfl, rfl⟩
  | none =>
    refine .inr ⟨rfl, ?_⟩
    simp only [Option.elim_none]
    obtain ⟨hit, hhit⟩ := m.screen.succeeds_plotRows (m.v x).toNat (m.v y).toNat
      ((List.range n.val).map fun k => m.memory.get (m.registers.i.toNat + k))
    split
    · next kind _ hplot => simp [hplot] at hhit
    · next hit' screen hplot => exact ⟨hit', screen, rfl⟩

/-- Storing at the index register fails as a whole, before the first byte is written. -/
theorem storeAtIndex_eq (m : Machine) (data : List UInt8) (next : Machine → Machine) :
    m.storeAtIndex data next = (Memory.overrun m.registers.i data.length).elim
      (.ok .next, next { m with memory := m.memory.store m.registers.i.toNat data })
      (fun kind => (.error kind, m)) := by
  rw [storeAtIndex, Memory.write_eq]
  cases Memory.overrun m.registers.i data.length <;> rfl

/-- Loading the registers fails as a whole, before the first of them is written. -/
theorem loadRegs_eq (m : Machine) (keys : Keypad) (x : Fin 16) :
    m.execute keys (.loadRegs x) = (Memory.overrun m.registers.i (x.val + 1)).elim
      (.ok .next,
        { m with registers := m.registers.setFirst
                  ((List.range (x.val + 1)).map fun k => m.memory.get (m.registers.i.toNat + k))
          }.bumpIndex (x.val + 1))
      (fun kind => (.error kind, m)) := by
  rw [execute, Memory.read_eq]
  cases Memory.overrun m.registers.i (x.val + 1) <;> rfl

/-! ## Instructions that succeed -/

/-- Where a successful instruction leads from the machine `m`, and the machine it leaves, as far as
    the call stack and the activity are concerned. -/
inductive Course (m : Machine) : Instruction → Flow → Machine → Prop where
  /-- A return takes the last address off the call stack and goes there. -/
  | ret (hsp : 0 < m.registers.sp) :
    Course m .ret (.jump (m.registers.stack.getD (m.registers.sp - 1) 0))
      { m with registers := { m.registers with sp := m.registers.sp - 1 } }
  /-- A call puts the address of the next instruction on the call stack. -/
  | call (addr : UInt16) (hsp : m.registers.sp < stackDepth) :
    Course m (.call addr) (.jump addr)
      { m with registers :=
          { m.registers with
            stack := m.registers.stack.set m.registers.sp (m.registers.pc + 2) hsp,
            sp := m.registers.sp + 1 } }
  | jump (addr : UInt16) : Course m (.jump addr) (.jump addr) m
  | jumpOffset (addr : UInt16) :
    Course m (.jumpOffset addr) (.jump (addr + (m.v 0).toUInt16)) m
  | waitKey (x : Fin 16) : Course m (.waitKey x) .next { m with activity := .awaitingKey x }
  /-- All other instructions go on to the next one or the one after it. -/
  | straight {i : Instruction} {flow : Flow} {m' : Machine} (hflow : ∀ addr, flow ≠ .jump addr)
    (hsp : m'.registers.sp = m.registers.sp) (hstack : m'.registers.stack = m.registers.stack)
    (hactivity : m'.activity = m.activity) : Course m i flow m'

/-- A successful instruction leaves a machine running, unless it is the one that waits for a key. -/
theorem Course.running_or_waits {m m' : Machine} {i : Instruction} {flow : Flow}
    (h : Course m i flow m') (hrun : m.activity = .running) :
    m'.activity = .running ∨
      ∃ x, i = .waitKey x ∧ flow = .next ∧ m' = { m with activity := .awaitingKey x } := by
  cases h with
  | waitKey x => exact .inr ⟨x, rfl, rfl, rfl⟩
  | straight _ _ _ hactivity => exact .inl (hactivity.trans hrun)
  | ret _ | call _ _ | jump _ | jumpOffset _ => exact .inl hrun

theorem Flow.skipIf_ne_jump (skip : Bool) (addr : UInt16) : Flow.skipIf skip ≠ .jump addr := by
  cases skip <;> simp [Flow.skipIf]

/-- An access that is checked first either finds something wrong and changes nothing, or leads to
    the next instruction. -/
theorem cases_of_checked {m m' : Machine} {i : Instruction} {executed : Executed}
    (hexec : executed = (objection m.registers i).elim (.ok .next, m') fun kind => (.error kind, m))
    (hcourse : Course m i .next m') :
    (∃ kind, objection m.registers i = some kind ∧ executed = (.error kind, m)) ∨
      (objection m.registers i = none ∧ ∃ flow m', executed = (.ok flow, m') ∧
        Course m i flow m') := by
  cases hwrong : objection m.registers i with
  | some kind => exact .inl ⟨kind, rfl, by rw [hexec, hwrong]; rfl⟩
  | none => exact .inr ⟨rfl, .next, m', by rw [hexec, hwrong]; rfl, hcourse⟩

/-- An instruction that objects to something has changed nothing at all, and one that does not
    succeeds. -/
theorem execute_cases (m : Machine) (keys : Keypad) (i : Instruction) :
    (∃ kind, objection m.registers i = some kind ∧ m.execute keys i = (.error kind, m)) ∨
      (objection m.registers i = none ∧ ∃ flow m', m.execute keys i = (.ok flow, m') ∧
        Course m i flow m') := by
  have hnext : ∀ addr, Flow.next ≠ .jump addr := by simp
  cases i
  case ret =>
    simp only [objection, execute, Registers.pop]
    split
    · exact .inl ⟨_, rfl, rfl⟩
    · exact .inr ⟨rfl, _, _, rfl, .ret (by omega)⟩
  case call addr =>
    simp only [objection, execute, Registers.push]
    split
    · next hsp => exact .inr ⟨rfl, _, _, rfl, .call addr hsp⟩
    · exact .inl ⟨_, rfl, rfl⟩
  case jump addr => exact .inr ⟨rfl, _, _, rfl, .jump addr⟩
  case jumpOffset addr => exact .inr ⟨rfl, _, _, rfl, .jumpOffset addr⟩
  case waitKey x => exact .inr ⟨rfl, _, _, rfl, .waitKey x⟩
  -- what reaches into memory checks the whole range before it changes anything
  case draw x y n =>
    obtain ⟨kind, hover, hdraw⟩ | ⟨hover, hit, screen, hdraw⟩ := m.draw_cases x y n
    · exact .inl ⟨kind, hover, hdraw⟩
    · exact .inr ⟨hover, _, _, hdraw, .straight hnext rfl rfl rfl⟩
  case storeBcd x =>
    exact cases_of_checked (m.storeAtIndex_eq _ _) (.straight hnext rfl rfl rfl)
  case storeRegs x =>
    have hlength : (m.registers.v.toList.take (x.val + 1)).length = x.val + 1 := by
      have hx := x.isLt
      rw [List.length_take, Vector.length_toList]
      omega
    have hexec := m.storeAtIndex_eq (m.registers.v.toList.take (x.val + 1))
      (·.bumpIndex (x.val + 1))
    rw [hlength, bumpIndex_eq_setIndex] at hexec
    exact cases_of_checked hexec (.straight hnext rfl rfl rfl)
  case loadRegs x =>
    refine cases_of_checked (loadRegs_eq m keys x) ?_
    rw [bumpIndex_eq_setIndex]
    apply Course.straight hnext <;> simp only [setIndex, Registers.setFirst]
  case skipEqImm | skipNeImm | skipEqReg | skipNeReg | skipKeyPressed | skipKeyReleased =>
    exact .inr ⟨rfl, _, _, rfl, .straight (Flow.skipIf_ne_jump _) rfl rfl rfl⟩
  -- the rest cannot fail and leaves the call stack alone
  all_goals exact .inr ⟨rfl, _, _, rfl, .straight hnext rfl rfl rfl⟩

/-! ## Cycles -/

def wordAtPc (m : Machine) : Word := m.memory.wordAt m.registers.pc.toNat

/-- Is the machine about to execute the word? -/
structure AboutTo (m : Machine) (w : Word) : Prop where
  running : m.activity = .running
  fetched : m.memory.word m.registers.pc = .ok w

theorem aboutTo_iff {m : Machine} {w : Word} :
    m.AboutTo w ↔
      m.activity = .running ∧ Memory.overrun m.registers.pc 2 = none ∧ m.wordAtPc = w :=
  ⟨fun h => ⟨h.running, Memory.word_eq_ok_iff.mp h.fetched⟩,
    fun h => ⟨h.1, Memory.word_eq_ok_iff.mpr h.2⟩⟩

instance (m : Machine) (w : Word) : Decidable (m.AboutTo w) := decidable_of_iff' _ aboutTo_iff

/-- What is logged about the word at the program counter when it is executed. -/
def logAtPc (m : Machine) : List Record :=
  .executing m.registers.pc m.wordAtPc :: remarks (decode m.wordAtPc)

/-- What a cycle of the machine `m` can come to. -/
inductive Stepped (m : Machine) (keys : Keypad) : Step → Prop where
  | waiting {x : Fin 16} (hwait : m.activity = .awaitingKey x) (hkey : keys.newlyPressed = none) :
    Stepped m keys { machine := m }
  | pressed {x : Fin 16} {key : UInt8} (hwait : m.activity = .awaitingKey x)
    (hkey : keys.newlyPressed = some key) :
    Stepped m keys
      { machine := { m with registers := m.registers.setV x key, activity := .running } }
  | unfetched {kind : FaultKind} (hrun : m.activity = .running)
    (hfetch : Memory.overrun m.registers.pc 2 = some kind) :
    Stepped m keys
      { machine := m, fault := some { kind, opcode := none, registers := m.registers } }
  | objected {kind : FaultKind} (hrun : m.activity = .running)
    (hfetch : Memory.overrun m.registers.pc 2 = none)
    (hobjection : objection m.registers (decode m.wordAtPc) = some kind) :
    Stepped m keys
      { machine := m,
        log := m.logAtPc,
        fault := some { kind, opcode := some m.wordAtPc, registers := m.registers } }
  | executed {flow : Flow} {m' : Machine} (hrun : m.activity = .running)
    (hfetch : Memory.overrun m.registers.pc 2 = none)
    (hobjection : objection m.registers (decode m.wordAtPc) = none)
    (hexec : m.execute keys (decode m.wordAtPc) = (.ok flow, m'))
    (hcourse : Course m (decode m.wordAtPc) flow m') :
    Stepped m keys { machine := m'.goto (flow.target m.registers.pc), log := m.logAtPc }

/-- A cycle comes to one of the five. In particular the only thing that a fault puts back, the
    register file, is not even changed by then. -/
theorem stepped (m : Machine) (keys : Keypad) : Stepped m keys (m.step keys) := by
  unfold step
  split
  · next x hwait =>
    split
    · next key hkey => exact .pressed hwait hkey
    · next hkey => exact .waiting hwait hkey
  · next hrun =>
    rw [Memory.word_eq]
    cases hfetch : Memory.overrun m.registers.pc 2 with
    | some kind => exact .unfetched hrun hfetch
    | none =>
      simp only [Option.elim_none]
      obtain ⟨kind, hobjection, hexec⟩ | ⟨hobjection, flow, m', hexec, hcourse⟩ :=
        m.execute_cases keys (decode m.wordAtPc)
      · rw [← wordAtPc, hexec]
        exact .objected hrun hfetch hobjection
      · rw [← wordAtPc, hexec]
        exact .executed hrun hfetch hobjection hexec hcourse

/-- A machine about to execute an instruction that succeeds executes it and moves on. -/
theorem step_of_execute {m m' : Machine} {keys : Keypad} {w : Word} {flow : Flow}
    (h : m.AboutTo w) (hexec : m.execute keys (decode w) = (.ok flow, m')) :
    (m.step keys).fault = none ∧
      (m.step keys).machine = m'.goto (flow.target m.registers.pc) := by
  simp only [step, h.running, h.fetched, hexec]
  exact ⟨trivial, trivial⟩

end Machine

end Chip8
