import Chip8.Proofs.Faults

set_option autoImplicit false

/-! # What lies aside

The timers, the dialect and the random stream of a machine lie aside: few instructions look at them,
and fewer change them. Two machines that differ in nothing else execute an instruction alike, even
with different keys held, unless the instruction looks at something in which they differ
(`execute_withAside`), and so do the cycles in which they complete it (`machine_step_withAside`). A
machine differs in nothing from itself, so the same lemma also tells what becomes of the things
aside in any act (`aside_act`). -/

namespace Chip8

/-- Does the instruction look at the delay timer or at the keypad? -/
def Instruction.senses : Instruction → Bool
  | .getDelay _ | .skipKeyPressed _ | .skipKeyReleased _ | .waitKey _ => true
  | _ => false

namespace Machine

/-- The parts of a machine that lie aside. -/
structure Aside where
  delay : UInt8
  sound : UInt8
  dialect : Dialect
  random : KeyStream

/-- What lies aside in a machine. -/
def aside (m : Machine) : Aside where
  delay := m.registers.delay
  sound := m.registers.sound
  dialect := m.dialect
  random := m.random

/-- The machine with other things aside. -/
def withAside (m : Machine) (a : Aside) : Machine :=
  { m with
    registers := { m.registers with delay := a.delay, sound := a.sound },
    dialect := a.dialect,
    random := a.random }

/-- What lies aside once the machine `m` has executed an instruction. -/
def Aside.executed (a : Aside) (m : Machine) : Instruction → Aside
  | .setDelay x => { a with delay := m.v x }
  | .setSound x => { a with sound := m.v x }
  | .random _ _ => { a with random := a.random.next.2 }
  | _ => a

/-- May another dialect or another random stream make a difference to what the instruction does to
    the machine? -/
def tells (m : Machine) : Instruction → Bool
  | .shiftRight x y | .shiftLeft x y => m.v x != m.v y
  | .random _ nn => nn != 0
  | .storeRegs _ | .loadRegs _ => true
  | _ => false

theorem Aside.delay_executed (a : Aside) (m : Machine) {i : Instruction}
    (h : ∀ x, i ≠ .setDelay x) : (a.executed m i).delay = a.delay := by
  cases i
  case setDelay x => exact absurd rfl (h x)
  all_goals rfl

theorem Aside.sound_executed (a : Aside) (m : Machine) {i : Instruction}
    (h : ∀ x, i ≠ .setSound x) : (a.executed m i).sound = a.sound := by
  cases i
  case setSound x => exact absurd rfl (h x)
  all_goals rfl

theorem Aside.random_executed (a : Aside) (m : Machine) {i : Instruction}
    (h : ∀ x nn, i ≠ .random x nn) : (a.executed m i).random = a.random := by
  cases i
  case random x nn => exact absurd rfl (h x nn)
  all_goals rfl

theorem Aside.dialect_executed (a : Aside) (m : Machine) (i : Instruction) :
    (a.executed m i).dialect = a.dialect := by
  cases i <;> rfl

theorem withAside_aside (m : Machine) : m.withAside m.aside = m := rfl

theorem withTimers_eq_withAside (m : Machine) (d s : UInt8) :
    m.withTimers d s = m.withAside { m.aside with delay := d, sound := s } := rfl

section

variable (m : Machine) (a : Aside)

@[simp] theorem memory_withAside : (m.withAside a).memory = m.memory := rfl

@[simp] theorem screen_withAside : (m.withAside a).screen = m.screen := rfl

@[simp] theorem activity_withAside : (m.withAside a).activity = m.activity := rfl

@[simp] theorem wordAtPc_withAside : (m.withAside a).wordAtPc = m.wordAtPc := rfl

@[simp] theorem index_withAside : (m.withAside a).registers.i = m.registers.i := rfl

@[simp] theorem bytes_withAside : (m.withAside a).registers.v = m.registers.v := rfl

@[simp] theorem v_withAside (x : Fin 16) : (m.withAside a).v x = m.v x := rfl

end

/-! ## Instructions -/

/-- With the same value in both registers, every dialect shifts the same. -/
theorem shiftSource_of_eq {m : Machine} {x y : Fin 16} (h : m.v x = m.v y) :
    m.shiftSource x y = m.v y := by
  unfold shiftSource
  split
  · rfl
  · exact h

/-- An instruction that does not look at what is different goes the same way, and leaves the same
    behind. -/
theorem execute_withAside (m : Machine) (a : Aside) {keys keys' : Keypad} {i : Instruction}
    (hsenses : i.senses = true → a.delay = m.registers.delay ∧ keys' = keys)
    (htells : m.tells i = true → a.dialect = m.dialect ∧ a.random = m.random) :
    (m.withAside a).execute keys' i =
      ((m.execute keys i).1, (m.execute keys i).2.withAside (a.executed m i)) := by
  obtain ⟨delay, sound, dialect, random⟩ := a
  dsimp only at hsenses htells
  cases i
  case getDelay x =>
    obtain ⟨rfl, -⟩ := hsenses rfl
    rfl
  case skipKeyPressed x | skipKeyReleased x =>
    obtain ⟨-, rfl⟩ := hsenses rfl
    rfl
  case shiftRight x y | shiftLeft x y =>
    by_cases hsame : m.v x = m.v y
    · have hsource := shiftSource_of_eq hsame
      have hsource' := shiftSource_of_eq (m := m.withAside ⟨delay, sound, dialect, random⟩) hsame
      simp only [execute, hsource, hsource']
      rfl
    · obtain ⟨rfl, -⟩ := htells (by simpa [tells] using hsame)
      rfl
  case random x nn =>
    by_cases hmask : nn = 0
    · subst hmask
      simp only [execute, UInt8.and_zero]
      rfl
    · obtain ⟨-, rfl⟩ := htells (by simpa [tells] using hmask)
      rfl
  case ret =>
    by_cases hsp : m.registers.sp = 0 <;>
      simp [execute, Registers.pop, withAside, Aside.executed, hsp]
  case call addr =>
    by_cases hsp : m.registers.sp < stackDepth <;>
      simp [execute, Registers.push, withAside, Aside.executed, hsp]
  case draw x y n =>
    simp only [execute, draw, memory_withAside, index_withAside, screen_withAside, v_withAside]
    cases m.memory.read m.registers.i n.val with
    | error kind => rfl
    | ok rows =>
      dsimp only
      rcases m.screen.plotRows (m.v x).toNat (m.v y).toNat rows with ⟨_ | hit, screen⟩ <;> rfl
  case storeBcd x =>
    simp only [execute, storeAtIndex, memory_withAside, index_withAside, v_withAside]
    cases m.memory.write m.registers.i (bcd (m.v x)) <;> rfl
  case storeRegs x =>
    obtain ⟨rfl, -⟩ := htells rfl
    simp only [execute, storeAtIndex, memory_withAside, index_withAside, bytes_withAside,
      bumpIndex_eq_setIndex]
    cases m.memory.write m.registers.i (m.registers.v.toList.take (x.val + 1)) <;> rfl
  case loadRegs x =>
    obtain ⟨rfl, -⟩ := htells rfl
    simp only [execute, memory_withAside, index_withAside, bumpIndex_eq_setIndex]
    cases m.memory.read m.registers.i (x.val + 1) <;> rfl
  -- the rest neither looks at what is different nor can fail
  all_goals rfl

/-! ## Acts -/

variable {m : Machine} {keys : Keypad}

/-- What lies aside after something has been done with the machine `m`. -/
def Aside.acted (a : Aside) (m : Machine) : Act → Aside
  | .load _ => a
  | .step keys => (m.completed (.step keys)).elim a (a.executed m)
  | .tick =>
    { a with delay := Registers.countDown a.delay, sound := Registers.countDown a.sound }

theorem loadOutcome_withAside (m : Machine) (a : Aside) (source : Source) :
    (m.withAside a).loadOutcome source =
      (m.loadOutcome source).map fun outcome => (outcome.1, outcome.2.withAside a) := by
  simp only [loadOutcome, load, withAside]
  rcases m.memory.load source with _ | ⟨_ | _, left⟩ <;> rfl

theorem act_load_withAside (m : Machine) (a : Aside) (source : Source) :
    (m.withAside a).act (.load source) = (m.act (.load source)).withAside a := by
  simp only [act, loadOutcome_withAside]
  cases m.loadOutcome source <;> rfl

theorem answer_load_withAside (m : Machine) (a : Aside) (source : Source) :
    (m.withAside a).answer (.load source) = m.answer (.load source) := by
  simp only [answer, loadOutcome_withAside]
  cases m.loadOutcome source <;> rfl

/-- Nothing that lies aside, and no key, can be a reason for a complaint. -/
theorem complaint_withAside (m : Machine) (a : Aside) : (m.withAside a).complaint = m.complaint :=
  complaint_withTimers { m with dialect := a.dialect, random := a.random } a.delay a.sound

theorem completed_withAside (m : Machine) (a : Aside) (keys keys' : Keypad) :
    (m.withAside a).completed (.step keys') = m.completed (.step keys) := by
  rw [completed_step, completed_step, complaint_withAside, activity_withAside, wordAtPc_withAside]

/-- A cycle that completes an instruction does the same to machines that differ in nothing at which
    the instruction looks. -/
theorem machine_step_withAside {i : Instruction} (hi : m.completed (.step keys) = some i)
    (a : Aside) (keys' : Keypad)
    (hsenses : i.senses = true → a.delay = m.registers.delay ∧ keys' = keys)
    (htells : m.tells i = true → a.dialect = m.dialect ∧ a.random = m.random) :
    ((m.withAside a).step keys').machine = (m.step keys).machine.withAside (a.executed m i) := by
  obtain ⟨-, -, flow, m₁, hexec, -, hstep⟩ := step_of_completed hi
  obtain ⟨-, -, flow', m₁', hexec', -, hstep'⟩ :=
    step_of_completed ((completed_withAside m a keys keys').trans hi)
  have hagree := execute_withAside m a hsenses htells
  rw [hexec, hexec'] at hagree
  cases hagree
  rw [hstep, hstep']
  rfl

/-- Any act does the same to machines that differ in nothing at which its instruction looks. -/
theorem act_withAside (m : Machine) (a : Aside) (b : Act) (hdelay : a.delay = m.registers.delay)
    (htells : ∀ i, m.completed b = some i → m.tells i = true →
      a.dialect = m.dialect ∧ a.random = m.random) :
    (m.withAside a).act b = (m.act b).withAside (a.acted m b) := by
  cases b with
  | load source => exact m.act_load_withAside a source
  | tick => rfl
  | step keys =>
    cases hrun : m.activity with
    | awaitingKey x =>
      have hnone : m.completed (.step keys) = none := by simp [completed, hrun]
      simp only [act, step, activity_withAside, hrun, Aside.acted, hnone, Option.elim_none]
      cases keys.newlyPressed <;> rfl
    | running =>
      rcases completed_or_complaint hrun keys with hi | ⟨c, hc, hnone⟩
      · simp only [act, Aside.acted, hi, Option.elim_some]
        exact machine_step_withAside hi a keys (fun _ => ⟨hdelay, rfl⟩) (htells _ hi)
      · have hc' : (m.withAside a).complaint = some c := (complaint_withAside m a).trans hc
        simp only [act, Aside.acted, hnone, Option.elim_none, machine_step_of_complaint hc,
          machine_step_of_complaint hc']

/-- What becomes of the things aside. -/
theorem aside_act (m : Machine) (b : Act) : (m.act b).aside = m.aside.acted m b :=
  congrArg aside (m.act_withAside m.aside b rfl fun _ _ _ => ⟨rfl, rfl⟩)

theorem dialect_act (m : Machine) (a : Act) : (m.act a).dialect = m.dialect := by
  have haside : (m.act a).dialect = (m.aside.acted m a).dialect :=
    congrArg Aside.dialect (m.aside_act a)
  rw [haside]
  cases a with
  | load _ | tick => rfl
  | step keys =>
    rw [Aside.acted]
    cases m.completed (.step keys) with
    | none => rfl
    | some i => exact m.aside.dialect_executed m i

theorem dialect_after (m : Machine) (acts : List Act) : (m.after acts).dialect = m.dialect :=
  after_induction (P := fun n => n.dialect = m.dialect)
    (fun n a hn => (n.dialect_act a).trans hn) rfl acts

end Machine

end Chip8
