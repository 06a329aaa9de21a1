import Chip8.Proofs.Aside

set_option autoImplicit false

/-! # What dialect and seed make a difference to

Machines of different dialects, with different random streams, agree on everything else until an
instruction is completed that gives the difference away: a random byte under a mask that lets
anything through, a shift between registers that hold different values, or a block of registers
stored or loaded. Which instructions do so hangs on the registers, so they are collected along a
history (`telltales`). Without them every act does the same to both machines and answers the same
(`act_recast`), and so does a whole history (`machines_agree_without_telltales`). -/

namespace Chip8

namespace Machine

variable {m : Machine}

/-- The machine with another dialect and another random stream. -/
def recast (m : Machine) (dialect : Dialect) (random : KeyStream) : Machine :=
  { m with dialect, random }

theorem recast_eq_withAside (m : Machine) (dialect : Dialect) (random : KeyStream) :
    m.recast dialect random = m.withAside { m.aside with dialect, random } := rfl

/-- The instructions that a history completes and that may give dialect or random stream away. -/
def telltales (m : Machine) : List Act → List Instruction
  | [] => []
  | a :: rest => (m.completed a).toList.filter m.tells ++ (m.act a).telltales rest

/-- The timers go the same way whatever the dialect and the random stream are, and the dialect stays
    what it is. -/
theorem Aside.exists_acted_recast (a : Aside) (m : Machine) (b : Act) (dialect : Dialect)
    (random : KeyStream) :
    ∃ random', Aside.acted { a with dialect, random } m b =
      { a.acted m b with dialect, random := random' } := by
  cases b with
  | load source => exact ⟨random, rfl⟩
  | tick => exact ⟨random, rfl⟩
  | step keys =>
    simp only [Aside.acted]
    cases m.completed (.step keys) with
    | none => exact ⟨random, rfl⟩
    | some i => cases i <;> exact ⟨_, rfl⟩

/-- An act that completes no telltale does the same whatever the dialect and the random stream are,
    and answers the same. -/
theorem act_recast {b : Act} (hnone : ∀ i, m.completed b = some i → m.tells i = false)
    (dialect : Dialect) (random : KeyStream) :
    (m.recast dialect random).answer b = m.answer b ∧
      ∃ random', (m.recast dialect random).act b = (m.act b).recast dialect random' := by
  have hact := m.act_withAside { m.aside with dialect, random } b rfl
    (fun i hi htells => by simp [hnone i hi] at htells)
  constructor
  · cases b with
    | load source =>
      rw [recast_eq_withAside]
      exact m.answer_load_withAside _ source
    | step keys =>
      simp only [answer, recast_eq_withAside, fault_step, complaint_withAside]
      rfl
    | tick => rfl
  · obtain ⟨random', hacted⟩ := m.aside.exists_acted_recast m b dialect random
    refine ⟨random', ?_⟩
    rw [recast_eq_withAside, hact, hacted, ← aside_act, recast_eq_withAside]

theorem after_recast {acts : List Act} (hnone : m.telltales acts = []) (dialect : Dialect)
    (random : KeyStream) :
    (m.recast dialect random).answers acts = m.answers acts ∧
      ∃ random', (m.recast dialect random).after acts = (m.after acts).recast dialect random' := by
  induction acts generalizing m random with
  | nil => exact ⟨rfl, random, rfl⟩
  | cons b rest ih =>
    obtain ⟨hfirst, hrest⟩ := List.append_eq_nil_iff.mp hnone
    have hneutral : ∀ i, m.completed b = some i → m.tells i = false := by
      intro i hi
      rw [hi, Option.toList_some, List.filter_eq_nil_iff] at hfirst
      simpa using hfirst i List.mem_cons_self
    obtain ⟨hanswer, random', hact⟩ := act_recast hneutral dialect random
    obtain ⟨hanswers, random'', hafter⟩ := ih hrest random'
    refine ⟨?_, random'', ?_⟩
    · rw [answers, answers, hanswer, hact, hanswers]
    · rw [after_cons, after_cons, hact, hafter]

/-- **Dialect and seed matter only where they should.** Let two machines of whatever dialects and
    seeds go through the same history. As long as no random byte is taken under a mask other than
    zero, nothing is shifted between registers that hold different values, and no block of registers
    is stored or loaded, all acts answer the same on both machines, and the machines agree on
    memory, screen, activity and every register. -/
theorem machines_agree_without_telltales (dialect dialect' : Dialect) (seed seed' : Seed)
    (acts : List Act) (hnone : (fresh dialect seed).telltales acts = []) :
    let m := (fresh dialect seed).after acts
    let m' := (fresh dialect' seed').after acts
    (fresh dialect' seed').answers acts = (fresh dialect seed).answers acts ∧
    m'.memory = m.memory ∧ m'.screen = m.screen ∧ m'.activity = m.activity ∧
    m'.registers = m.registers := by
  intro m m'
  have hfresh : fresh dialect' seed' =
      (fresh dialect seed).recast dialect' (KeyStream.ofSeed seed') := rfl
  obtain ⟨hanswers, random', hafter⟩ := after_recast hnone dialect' (KeyStream.ofSeed seed')
  have hm' : m' = m.recast dialect' random' := hafter
  rw [hfresh, hanswers, hm']
  exact ⟨rfl, rfl, rfl, rfl, rfl⟩

/-- A program that takes a random byte under the mask zero, shifts between registers with the same
    value and then tries to store four registers where there is room for one. -/
def sameShift : Act :=
  .load (.ofBytes [0xc2, 0x00, 0x60, 0x07, 0x61, 0x07, 0x80, 0x16, 0xaf, 0xff, 0xf3, 0x55])

/-- It does not give away the dialect or the seed, not even by the fault in the end. -/
theorem sameShift_tells_nothing :
    let dialect : Dialect := { shiftUsesVy := true, loadStoreBumpsIndex := true }
    let acts : List Act := sameShift :: List.replicate 6 (.step .idle)
    (fresh {} 1).telltales acts = [] ∧
    (fresh dialect 2).answers acts = (fresh {} 1).answers acts ∧
    ((fresh dialect 2).after acts).registers = ((fresh {} 1).after acts).registers ∧
    ((fresh {} 1).after acts).v 0 = 3 ∧ ((fresh {} 1).after acts).registers.pc = 0x20a := by
  intro dialect acts
  obtain ⟨hnone, hshifted, hpc⟩ : (fresh {} 1).telltales acts = [] ∧
      ((fresh {} 1).after acts).v 0 = 3 ∧ ((fresh {} 1).after acts).registers.pc = 0x20a := by
    decide +kernel
  obtain ⟨hanswers, -, -, -, hregisters⟩ :=
    machines_agree_without_telltales {} dialect 1 2 acts hnone
  exact ⟨hnone, hanswers, hregisters, hshifted, hpc⟩

end Machine

end Chip8
