import Chip8.Proofs.Aside
import Chip8.Proofs.Bounds
import Chip8.Proofs.Decoding
import Chip8.Proofs.Effects

set_option autoImplicit false

/-! # One row for each instruction

The instruction table read as a table on words: which words store and how many bytes, which paint,
which set a register, which move the index register, which jump and where, and which skip and when.
Each of the relations below is one column of it, with the words written out by their digits, so that
nothing here hangs on how a word is read. A successful cycle changes nothing but what the row of its
word allows (`OwnRow`). One half of that goes from what an instruction does to the word it must have
been read from, by `Instruction.encode_decode`; the other half goes from the word to what it does,
by `Instruction.decode_encode`. -/

namespace Chip8

open Instruction (decode encode encode_decode decode_encode)

/-! ## The columns -/

/-- The words FX33 and FX55 store, the first three bytes and the second X + 1. -/
inductive StoreWord : Word → Nat → Prop where
  | bcd (x : Fin 16) : StoreWord (.ofImmediate 0xf x 0x33) 3
  | regs (x : Fin 16) : StoreWord (.ofImmediate 0xf x 0x55) (x.val + 1)

/-- The words 00E0 and DXYN paint. -/
inductive PaintWord : Word → Prop where
  | clear : PaintWord 0x00e0
  | draw (x y n : Fin 16) : PaintWord (.ofDigits 0xd x y n)

/-- The words that may set the register `y`. -/
inductive TargetWord (y : Fin 16) : Word → Prop where
  | load (nn : UInt8) : TargetWord y (.ofImmediate 0x6 y nn)
  | add (nn : UInt8) : TargetWord y (.ofImmediate 0x7 y nn)
  /-- The words 8XY0 to 8XY7 and 8XYE set VX. -/
  | arithmetic (z n : Fin 16) (hn : n ≤ 0x7 ∨ n = 0xe) : TargetWord y (.ofDigits 0x8 y z n)
  /-- The words 8XY4 to 8XY7 and 8XYE set the flag as well. -/
  | flag (x z n : Fin 16) (hn : n ∈ [0x4, 0x5, 0x6, 0x7, 0xe]) (hy : y = 0xf) :
    TargetWord y (.ofDigits 0x8 x z n)
  | random (nn : UInt8) : TargetWord y (.ofImmediate 0xc y nn)
  | draw (x z n : Fin 16) (hy : y = 0xf) : TargetWord y (.ofDigits 0xd x z n)
  | getDelay : TargetWord y (.ofImmediate 0xf y 0x07)
  | loadRegs (x : Fin 16) (hy : y ≤ x) : TargetWord y (.ofImmediate 0xf x 0x65)

/-- The words that may move the index register, in a dialect. -/
inductive IndexWord (d : Dialect) : Word → Prop where
  | load (addr : UInt16) : IndexWord d (.ofAddress 0xa addr)
  | add (x : Fin 16) : IndexWord d (.ofImmediate 0xf x 0x1e)
  | glyph (x : Fin 16) : IndexWord d (.ofImmediate 0xf x 0x29)
  | storeRegs (x : Fin 16) (hbumps : d.loadStoreBumpsIndex = true) :
    IndexWord d (.ofImmediate 0xf x 0x55)
  | loadRegs (x : Fin 16) (hbumps : d.loadStoreBumpsIndex = true) :
    IndexWord d (.ofImmediate 0xf x 0x65)

/-- The words that jump from the machine `m`, and where to. -/
inductive JumpWord (m : Machine) : Word → Nat → Prop where
  | ret : JumpWord m 0x00ee (m.registers.stack.getD (m.registers.sp - 1) 0).toNat
  | jump (addr : UInt16) (haddr : addr.toNat < 4096) : JumpWord m (.ofAddress 0x1 addr) addr.toNat
  | call (addr : UInt16) (haddr : addr.toNat < 4096) : JumpWord m (.ofAddress 0x2 addr) addr.toNat
  | offset (addr : UInt16) (haddr : addr.toNat < 4096) :
    JumpWord m (.ofAddress 0xb addr) (addr.toNat + (m.v 0).toNat)

/-- The words that may skip the next instruction, and whether they do so in the machine `m` with
    these keys held. -/
inductive SkipWord (m : Machine) (keys : Keypad) : Word → Bool → Prop where
  | eqImm (x : Fin 16) (nn : UInt8) : SkipWord m keys (.ofImmediate 0x3 x nn) (m.v x == nn)
  | neImm (x : Fin 16) (nn : UInt8) : SkipWord m keys (.ofImmediate 0x4 x nn) (m.v x != nn)
  | eqReg (x y : Fin 16) : SkipWord m keys (.ofDigits 0x5 x y 0x0) (m.v x == m.v y)
  | neReg (x y : Fin 16) : SkipWord m keys (.ofDigits 0x9 x y 0x0) (m.v x != m.v y)
  | pressed (x : Fin 16) : SkipWord m keys (.ofImmediate 0xe x 0x9e) (keys.isPressed (m.v x))
  | released (x : Fin 16) : SkipWord m keys (.ofImmediate 0xe x 0xa1) !keys.isPressed (m.v x)

/-- The words that do nothing: those that are not assigned, and those that call machine code. -/
def Word.Idle (w : Word) : Prop :=
  ¬ w.Assigned ∨ w.family = 0x0 ∧ w ≠ 0x00e0 ∧ w ≠ 0x00ee

/-- All that a cycle may have changed of the machine `m` when it has executed the word `w` and left
    the machine `m'`. -/
structure OwnRow (m : Machine) (keys : Keypad) (w : Word) (m' : Machine) : Prop where
  memory : ∀ addr,
    (∀ len, StoreWord w len →
      addr < m.registers.i.toNat ∨ m.registers.i.toNat + len ≤ addr) →
    m'.memory.get addr = m.memory.get addr
  screen : ¬ PaintWord w → m'.screen = m.screen
  /-- A return makes the call stack one shallower and leaves all slots alone. -/
  stack_ret : w = 0x00ee →
    m'.registers.sp + 1 = m.registers.sp ∧ m'.registers.stack = m.registers.stack
  /-- A call makes the call stack one deeper and writes the slot at the old depth only. -/
  stack_call : ∀ addr, w = .ofAddress 0x2 addr →
    m'.registers.sp = m.registers.sp + 1 ∧
    ∃ hsp : m.registers.sp < stackDepth,
      m'.registers.stack = m.registers.stack.set m.registers.sp (m.registers.pc + 2) hsp
  stack : w ≠ 0x00ee → (∀ addr, w ≠ .ofAddress 0x2 addr) →
    m'.registers.sp = m.registers.sp ∧ m'.registers.stack = m.registers.stack
  index : ¬ IndexWord m.dialect w → m'.registers.i = m.registers.i
  index_add : ∀ x, w = .ofImmediate 0xf x 0x1e →
    m'.registers.i.toNat = (m.registers.i.toNat + (m.v x).toNat) % 65536
  delay : (∀ x, w ≠ .ofImmediate 0xf x 0x15) → m'.registers.delay = m.registers.delay
  sound : (∀ x, w ≠ .ofImmediate 0xf x 0x18) → m'.registers.sound = m.registers.sound
  activity : (∀ x, w ≠ .ofImmediate 0xf x 0x0a) → m'.activity = m.activity
  random : (∀ x nn, w ≠ .ofImmediate 0xc x nn) → m'.random = m.random
  dialect : m'.dialect = m.dialect
  v : ∀ y, ¬ TargetWord y w → m'.v y = m.v y
  pc_jump : ∀ target, JumpWord m w target → m'.registers.pc.toNat = target
  pc_skip : ∀ skips, SkipWord m keys w skips →
    m'.registers.pc.toNat = m.registers.pc.toNat + if skips then 4 else 2
  pc : (∀ target, ¬ JumpWord m w target) → (∀ skips, ¬ SkipWord m keys w skips) →
    m'.registers.pc.toNat = m.registers.pc.toNat + 2
  /-- The words that do nothing change nothing but the program counter. -/
  idle : w.Idle → m' = m.goto (m.registers.pc + 2)

namespace Machine

variable {m : Machine} {keys : Keypad} {i : Instruction} {w : Word}

/-! ## From what an instruction does to its word -/

theorem storeWord_of_stored (m : Machine) (i : Instruction) :
    m.stored i = [] ∨ StoreWord i.encode (m.stored i).length := by
  cases i
  case storeBcd x => exact .inr (.bcd x)
  case storeRegs x =>
    rw [length_stored_storeRegs]
    exact .inr (.regs x)
  all_goals exact .inl rfl

theorem paintWord_of_paints (h : i.paints = true) : PaintWord i.encode := by
  cases i
  case clearScreen => exact .clear
  case draw x y n => exact .draw x y n
  all_goals cases h

theorem targetWord_of_targets {y : Fin 16} (h : i.Targets y) : TargetWord y i.encode := by
  cases i
  case loadImm x nn => exact h ▸ .load nn
  case addImm x nn => exact h ▸ .add nn
  case move x z | or x z | and x z | xor x z => exact h ▸ .arithmetic z _ (by decide)
  case addReg x z | subReg x z | subReverse x z | shiftRight x z | shiftLeft x z =>
    obtain rfl | hflag := h
    · exact .arithmetic z _ (by decide)
    · exact .flag x z _ (by decide) hflag
  case random x nn => exact h ▸ .random nn
  case draw x z n => exact .draw x z n h
  case getDelay x => exact h ▸ .getDelay
  case loadRegs x => exact .loadRegs x h
  all_goals exact h.elim

theorem indexWord_of_moved (h : m.indexAfter i ≠ m.registers.i) :
    IndexWord m.dialect i.encode := by
  have hbumps {count : Nat} (h : m.indexPast count ≠ m.registers.i) :
      m.dialect.loadStoreBumpsIndex = true := by
    cases hdialect : m.dialect.loadStoreBumpsIndex with
    | true => rfl
    | false => exact absurd (by simp [indexPast, hdialect]) h
  cases i
  case loadIndex addr => exact .load addr
  case addIndex x => exact .add x
  case fontGlyph x => exact .glyph x
  case storeRegs x => exact .storeRegs x (hbumps h)
  case loadRegs x => exact .loadRegs x (hbumps h)
  all_goals exact absurd rfl h

/-- An instruction goes on to the next one, or its word is one that jumps or may skip. -/
theorem flowOf_cases (m : Machine) (keys : Keypad) {i : Instruction}
    (hi : ∀ addr, i.address? = some addr → addr.toNat < Memory.size) :
    m.flowOf keys i = .next ∨
      (∃ target, JumpWord m i.encode target) ∨ ∃ skips, SkipWord m keys i.encode skips := by
  cases i
  case ret => exact .inr (.inl ⟨_, .ret⟩)
  case jump addr => exact .inr (.inl ⟨_, .jump addr (hi addr rfl)⟩)
  case call addr => exact .inr (.inl ⟨_, .call addr (hi addr rfl)⟩)
  case jumpOffset addr => exact .inr (.inl ⟨_, .offset addr (hi addr rfl)⟩)
  case skipEqImm x nn => exact .inr (.inr ⟨_, .eqImm x nn⟩)
  case skipNeImm x nn => exact .inr (.inr ⟨_, .neImm x nn⟩)
  case skipEqReg x y => exact .inr (.inr ⟨_, .eqReg x y⟩)
  case skipNeReg x y => exact .inr (.inr ⟨_, .neReg x y⟩)
  case skipKeyPressed x => exact .inr (.inr ⟨_, .pressed x⟩)
  case skipKeyReleased x => exact .inr (.inr ⟨_, .released x⟩)
  all_goals exact .inl rfl

/-! ## From the word to what it does -/

theorem flowOf_jumpWord {target : Nat} (h : JumpWord m w target) (keys : Keypad) :
    ∃ addr, m.flowOf keys (decode w) = .jump addr ∧ addr.toNat = target := by
  cases h with
  | ret => exact ⟨_, rfl, rfl⟩
  | jump addr haddr =>
    exact ⟨_, congrArg (m.flowOf keys) (decode_encode (i := .jump addr) haddr), rfl⟩
  | call addr haddr =>
    exact ⟨_, congrArg (m.flowOf keys) (decode_encode (i := .call addr) haddr), rfl⟩
  | offset addr haddr =>
    exact ⟨_, congrArg (m.flowOf keys) (decode_encode (i := .jumpOffset addr) haddr),
      toNat_add_offset haddr _⟩

theorem flowOf_skipWord {skips : Bool} (h : SkipWord m keys w skips) :
    m.flowOf keys (decode w) = .skipIf skips := by
  cases h with
  | eqImm x nn => exact congrArg (m.flowOf keys) (decode_encode (i := .skipEqImm x nn) trivial)
  | neImm x nn => exact congrArg (m.flowOf keys) (decode_encode (i := .skipNeImm x nn) trivial)
  | eqReg x y => exact congrArg (m.flowOf keys) (decode_encode (i := .skipEqReg x y) trivial)
  | neReg x y => exact congrArg (m.flowOf keys) (decode_encode (i := .skipNeReg x y) trivial)
  | pressed x => exact congrArg (m.flowOf keys) (decode_encode (i := .skipKeyPressed x) trivial)
  | released x => exact congrArg (m.flowOf keys) (decode_encode (i := .skipKeyReleased x) trivial)

theorem execute_of_idle (h : w.Idle) (m : Machine) (keys : Keypad) :
    m.execute keys (decode w) = (.ok .next, m) := by
  obtain hunassigned | ⟨hfamily, hclear, hret⟩ := h
  · rw [Instruction.decode_of_not_assigned hunassigned]
    rfl
  · rw [Instruction.decode_machineCall hfamily hclear hret]
    rfl

theorem decode_callWord (addr : UInt16) :
    decode (.ofAddress 0x2 addr) = .call (Word.ofAddress 0x2 addr).nnn := by
  apply Instruction.decode_call
  rw [Word.toNat_ofAddress]
  omega

/-! ## Parts of a row -/

variable {m' : Machine} {flow : Flow}

/-- Outside of the bytes that a word stores, memory stays as it is. -/
theorem get_of_effect (h : Effect m keys i flow m') {addr : Nat}
    (haddr : ∀ len, StoreWord i.encode len →
      addr < m.registers.i.toNat ∨ m.registers.i.toNat + len ≤ addr) :
    m'.memory.get addr = m.memory.get addr := by
  rw [h.memory]
  obtain hnone | hlen := storeWord_of_stored m i
  · rw [hnone]
    rfl
  · exact Memory.get_store_of_outside (haddr _ hlen)

theorem stack_of_ret (h : Course m .ret flow m') (hflow : flow = m.flowOf keys .ret) :
    m'.registers.sp + 1 = m.registers.sp ∧ m'.registers.stack = m.registers.stack := by
  cases h with
  | ret hsp => exact ⟨Nat.sub_add_cancel hsp, rfl⟩
  | straight hstraight _ _ _ => exact absurd hflow (hstraight _)

theorem stack_of_call {addr : UInt16} (h : Course m (.call addr) flow m')
    (hflow : flow = m.flowOf keys (.call addr)) :
    m'.registers.sp = m.registers.sp + 1 ∧
      ∃ hsp : m.registers.sp < stackDepth,
        m'.registers.stack = m.registers.stack.set m.registers.sp (m.registers.pc + 2) hsp := by
  cases h with
  | call _ hsp => exact ⟨rfl, hsp, rfl⟩
  | straight hstraight _ _ _ => exact absurd hflow (hstraight _)

theorem stack_of_other (h : Course m i flow m') (hret : i ≠ .ret) (hcall : ∀ addr, i ≠ .call addr) :
    m'.registers.sp = m.registers.sp ∧ m'.registers.stack = m.registers.stack := by
  cases h with
  | ret _ => exact absurd rfl hret
  | call addr _ => exact absurd rfl (hcall addr)
  | jump _ | jumpOffset _ | waitKey _ => exact ⟨rfl, rfl⟩
  | straight _ hsp hstack _ => exact ⟨hsp, hstack⟩

/-- A successful cycle completes the instruction that the fetched word is read as. -/
theorem completed_of_aboutTo (h : m.AboutTo w) (hok : (m.step keys).fault = none) :
    m.completed (.step keys) = some (decode w) := by
  obtain ⟨hrun, -, rfl⟩ := aboutTo_iff.mp h
  exact if_pos ⟨hrun, hok⟩

/-- A word that can be fetched lies within memory. -/
theorem AboutTo.pc_le (h : m.AboutTo w) : m.registers.pc.toNat ≤ 0x10fe := by
  obtain ⟨-, hwithin, -⟩ := aboutTo_iff.mp h
  have hpc : m.registers.pc.toNat + 2 ≤ 4096 := Memory.overrun_eq_none_iff.mp hwithin
  omega

theorem toNat_target_skipIf {pc : UInt16} (hpc : pc.toNat ≤ 0x10fe) (skips : Bool) :
    ((Flow.skipIf skips).target pc).toNat = pc.toNat + if skips then 4 else 2 := by
  cases skips with
  | true => exact toNat_pc_add hpc (k := 4) (by decide)
  | false => exact toNat_pc_add hpc (k := 2) (by decide)

/-! ## The row of a word -/

/-- **Each instruction changes only its own row.** Let a machine be about to execute the word `w`,
    and let the cycle succeed, whatever keys are held. Then the cycle has changed nothing of the
    machine but what the table has in the row of `w`. -/
theorem step_changes_own_row (m : Machine) (keys : Keypad) (w : Word)
    (hword : m.AboutTo w) (hok : (m.step keys).fault = none) :
    OwnRow m keys w (m.step keys).machine := by
  have hi := completed_of_aboutTo hword hok
  have haside : (m.step keys).machine.aside = m.aside.executed m (decode w) := by
    have hact := m.aside_act (.step keys)
    rwa [Aside.acted, hi] at hact
  obtain ⟨-, -, flow, m', hexec, hcourse, hstep⟩ := step_of_completed hi
  have heffect := effect_of_execute hexec
  have hflow := heffect.flow
  have hw : (decode w).encode = w := encode_decode w
  have hne {i : Instruction} (h : w ≠ i.encode) : decode w ≠ i :=
    fun hi => h (hi ▸ hw).symm
  have hread {i : Instruction} (hi : i.WellFormed) (h : w = i.encode) : decode w = i :=
    h ▸ decode_encode hi
  have htarget {flow' : Flow} (h : m.flowOf keys (decode w) = flow') :
      (flow.target m.registers.pc).toNat = (flow'.target m.registers.pc).toNat := by
    rw [hflow, h]
  rw [hstep] at haside ⊢
  -- what has happened is told by the instruction, and what may happen by the word
  exact {
    memory addr haddr := get_of_effect heffect (by rwa [hw])
    screen h := by
      refine heffect.screen (Bool.eq_false_iff.mpr fun hpaints => h ?_)
      exact hw ▸ paintWord_of_paints hpaints
    stack_ret h := by
      rw [hread (i := .ret) trivial h] at hcourse hflow
      have hstack := stack_of_ret hcourse hflow
      exact hstack
    stack_call addr h := by
      rw [h, decode_callWord] at hcourse hflow
      have hstack := stack_of_call hcourse hflow
      exact hstack
    stack hret hcall := by
      have hstack := stack_of_other hcourse (hne (i := .ret) hret) fun addr =>
        hne (i := .call addr) (hcall addr)
      exact hstack
    index h := by
      refine heffect.index.trans (Classical.not_not.mp fun hmoved => h ?_)
      exact hw ▸ indexWord_of_moved hmoved
    index_add x h := by
      have hsum : m'.registers.i = m.registers.i + (m.v x).toUInt16 := by
        rw [heffect.index, hread (i := .addIndex x) trivial h]
        rfl
      refine (congrArg UInt16.toNat hsum).trans ?_
      rw [UInt16.toNat_add, UInt8.toNat_toUInt16]
    delay h := (congrArg Aside.delay haside).trans (m.aside.delay_executed m fun x => hne (h x))
    sound h := (congrArg Aside.sound haside).trans (m.aside.sound_executed m fun x => hne (h x))
    activity h := by
      obtain hkept | ⟨x, hwait, -, -⟩ := hcourse.running_or_waits hword.running
      · exact hkept.trans hword.running.symm
      · exact absurd hwait (hne (h x))
    random h := (congrArg Aside.random haside).trans
      (m.aside.random_executed m fun x nn => hne (h x nn))
    dialect := (congrArg Aside.dialect haside).trans (m.aside.dialect_executed m _)
    v y h := heffect.v y fun htargets => h (hw ▸ targetWord_of_targets htargets)
    pc_jump target h := by
      obtain ⟨addr, hjump, rfl⟩ := flowOf_jumpWord h keys
      exact htarget hjump
    pc_skip skips h := (htarget (flowOf_skipWord h)).trans (toNat_target_skipIf hword.pc_le skips)
    pc hjump hskip := by
      have hcases := flowOf_cases m keys fun _ => Instruction.address_decode_lt (w := w)
      rw [hw] at hcases
      obtain hnext | ⟨target, h⟩ | ⟨skips, h⟩ := hcases
      · exact (htarget hnext).trans (toNat_pc_add hword.pc_le (k := 2) (by decide))
      · exact absurd h (hjump target)
      · exact absurd h (hskip skips)
    idle h := by
      rw [execute_of_idle h] at hexec
      cases hexec
      rfl
  }

/-- A program that skips if V0 is zero. -/
def skipsAtZero : Act := .load (.ofBytes [0x30, 0x00])

/-- The word 3000 skips on a fresh machine and changes nothing else. -/
theorem skipsAtZero_skips :
    let m := (fresh {} 0).after [skipsAtZero]
    m.AboutTo 0x3000 ∧ (m.step .idle).fault = none ∧
    OwnRow m .idle 0x3000 (m.step .idle).machine ∧
    (m.step .idle).machine.registers.pc.toNat = 0x204 := by
  generalize hm : (fresh {} 0).after [skipsAtZero] = m
  obtain ⟨hword, hok, hpc, hzero⟩ : m.AboutTo 0x3000 ∧ (m.step .idle).fault = none ∧
      m.registers.pc.toNat = 0x200 ∧ m.v 0 = 0 := by
    subst hm
    decide +kernel
  have hrow := step_changes_own_row m .idle 0x3000 hword hok
  refine ⟨hword, hok, hrow, ?_⟩
  have hskip := hrow.pc_skip _ (.eqImm 0 0)
  rwa [hpc, hzero] at hskip

end Machine

end Chip8
