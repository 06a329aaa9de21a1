import Chip8.Proofs.Aside
import Chip8.Proofs.ByteStore
import Chip8.Proofs.Decoding
import Chip8.Proofs.Effects

set_option autoImplicit false

/-! # Registers through memory

What a history does to memory is a list of edits (`editsIn`): loading a program is one, and so is
every instruction that stores something. Seen that way the memory of a machine is the byte store of
`Chip8.Proofs.ByteStore` (`memory_after`), and a range that no edit of a history touches holds what
it held before. So the registers that are stored in such a range come back when they are loaded from
it, and so do the decimal digits of a byte (`transfers_round_trip`). -/

namespace Chip8

open Instruction (decode decode_encode)

namespace Machine

/-! ## The edits of a history -/

/-- The edits of memory that an act makes. Instructions that store nothing edit no byte. -/
def edits (m : Machine) : Act → List Edit
  | .load source => [.load source]
  | .step keys =>
    (m.completed (.step keys)).toList.map fun i => .write m.registers.i (m.stored i)
  | .tick => []

/-- The edits of memory that the acts of a history make, first one first. -/
def editsIn (m : Machine) : List Act → List Edit
  | [] => []
  | a :: rest => m.edits a ++ (m.act a).editsIn rest

/-- No act of a history writes to the `len` bytes from `addr` on. -/
def Untouched (m : Machine) (acts : List Act) (addr len : Nat) : Prop :=
  ∀ e ∈ m.editsIn acts, ∀ k < len, e.byteAt? (addr + k) = none

noncomputable instance (m : Machine) (acts : List Act) (addr len : Nat) :
    Decidable (m.Untouched acts addr len) :=
  inferInstanceAs (Decidable (∀ e ∈ m.editsIn acts, ∀ k < len, e.byteAt? (addr + k) = none))

variable {m : Machine} {keys : Keypad} {i : Instruction}

/-- What an instruction stores has been checked to lie within memory. -/
theorem store_eq_edit (h : objection m.registers i = none) :
    m.memory.store m.registers.i.toNat (m.stored i) =
      m.memory.edit (.write m.registers.i (m.stored i)) := by
  have hchecked : m.stored i = [] ∨
      Memory.overrun m.registers.i (m.stored i).length = none := by
    cases i
    case storeBcd x => exact .inr h
    case storeRegs x =>
      rw [length_stored_storeRegs]
      exact .inr h
    all_goals exact .inl rfl
  rw [Memory.edit_eq]
  obtain hnil | hwithin := hchecked
  · rw [hnil]
    exact (ite_self m.memory).symm
  · exact (if_pos (decide_eq_true (Memory.overrun_eq_none_iff.mp hwithin))).symm

theorem memory_act (m : Machine) (a : Act) :
    (m.act a).memory = m.memory.edited (m.edits a) := by
  cases a with
  | load source =>
    simp only [act, loadOutcome, load, edits, Memory.edited, List.foldl, Memory.edit]
    rcases m.memory.load source with _ | ⟨_ | _, left⟩ <;> rfl
  | tick => rfl
  | step keys =>
    have hstep := m.stepped keys
    simp only [act, edits, completed]
    generalize m.step keys = s at hstep ⊢
    cases hstep with
    | waiting hwait _ | pressed hwait _ =>
      rw [if_neg (by simp [hwait])]
      rfl
    | unfetched _ _ | objected _ _ _ =>
      rw [if_neg (by simp)]
      rfl
    | executed hrun _ hobjection hexec _ =>
      rw [if_pos ⟨hrun, rfl⟩]
      exact (effect_of_execute hexec).memory.trans (store_eq_edit hobjection)

theorem memory_after (m : Machine) (acts : List Act) :
    (m.after acts).memory = m.memory.edited (m.editsIn acts) := by
  induction acts generalizing m with
  | nil => rfl
  | cons a rest ih => rw [after_cons, ih, memory_act, editsIn, Memory.edited_append]

/-- A range that no act writes to holds what it held before. -/
theorem get_after_of_untouched {acts : List Act} {addr len k : Nat}
    (h : m.Untouched acts addr len) (hk : k < len) (hwithin : addr + len ≤ Memory.size) :
    (m.after acts).memory.get (addr + k) = m.memory.get (addr + k) := by
  have hnone : (m.editsIn acts).reverse.findSome? (·.byteAt? (addr + k)) = none :=
    List.findSome?_eq_none_iff.mpr fun e he => h e (List.mem_reverse.mp he) k hk
  rw [memory_after, Memory.get_edited _ _ (by omega), hnone]
  rfl

/-! ## Storing and loading -/

/-- Where the index register is left by a transfer of `count` bytes that starts at it. -/
def past (m : Machine) (count : Nat) : Nat :=
  m.registers.i.toNat + if m.dialect.loadStoreBumpsIndex then count else 0

theorem toNat_indexPast {count : Nat} (hwithin : m.registers.i.toNat + count ≤ Memory.size) :
    (m.indexPast count).toNat = m.past count := by
  have hsize : m.registers.i.toNat + count ≤ 4096 := hwithin
  unfold indexPast past
  split
  · rw [UInt16.toNat_add, UInt16.toNat_ofNat']
    omega
  · rfl

/-- An instruction that a machine is about to execute and finds nothing wrong with succeeds. -/
theorem effect_of_aboutTo (hi : i.WellFormed) (h : m.AboutTo i.encode)
    (hobjection : objection m.registers i = none) (keys : Keypad) :
    (m.step keys).fault = none ∧
      ∃ flow m', m.execute keys i = (.ok flow, m') ∧
        (m.step keys).machine = m'.goto (flow.target m.registers.pc) ∧ Effect m keys i flow m' := by
  obtain ⟨kind, hwrong, -⟩ | ⟨-, flow, m', hexec, -⟩ := m.execute_cases keys i
  · cases hobjection.symm.trans hwrong
  · have hdecoded : m.execute keys (decode i.encode) = (.ok flow, m') := by
      rw [decode_encode hi]
      exact hexec
    obtain ⟨hfault, hmachine⟩ := step_of_execute h hdecoded
    exact ⟨hfault, flow, m', hexec, hmachine, effect_of_execute hexec⟩

theorem v_of_loadRegs {n : Machine} {flow : Flow} {x y : Fin 16}
    (h : m.execute keys (.loadRegs x) = (.ok flow, n)) (hy : y ≤ x) :
    n.v y = m.memory.get (m.registers.i.toNat + y.val) := by
  have hloaded : (m.registers.setFirst (m.loaded x)).v.entry y =
      m.memory.get (m.registers.i.toNat + y.val) := by
    have hlt : y.val < x.val + 1 := Nat.lt_succ_of_le hy
    simp [Registers.v_setFirst, loaded, hlt]
  obtain ⟨-, rfl⟩ := ok_of_elim ((loadRegs_eq m keys x).symm.trans h)
  rw [bumpIndex_eq_setIndex]
  exact hloaded

/-- Loading takes the registers from memory. -/
theorem load_of_aboutTo {x : Fin 16} (h : m.AboutTo (Word.ofImmediate 0xf x 0x65))
    (hwithin : m.registers.i.toNat + (x.val + 1) ≤ Memory.size) (keys : Keypad) :
    (m.step keys).fault = none ∧
      (m.step keys).machine.registers.i.toNat = m.past (x.val + 1) ∧
      ∀ y, (m.step keys).machine.v y =
        if y ≤ x then m.memory.get (m.registers.i.toNat + y.val) else m.v y := by
  obtain ⟨hfault, flow, n, hexec, hmachine, heffect⟩ :=
    effect_of_aboutTo (i := .loadRegs x) trivial h (Memory.overrun_eq_none_iff.mpr hwithin) keys
  rw [hmachine]
  refine ⟨hfault, ?_, fun y => ?_⟩
  · rw [← toNat_indexPast hwithin]
    exact congrArg UInt16.toNat heffect.index
  · by_cases hy : y ≤ x
    · have hloaded := v_of_loadRegs hexec hy
      rw [if_pos hy]
      exact hloaded
    · rw [if_neg hy]
      exact heffect.v y hy

/-- Storing puts the bytes into memory. -/
theorem store_of_aboutTo (hi : i.WellFormed) (h : m.AboutTo i.encode)
    (hwithin : m.registers.i.toNat + (m.stored i).length ≤ Memory.size)
    (hobjection : objection m.registers i = none) (keys : Keypad) {k : Nat}
    (hk : k < (m.stored i).length) :
    (m.step keys).machine.memory.get (m.registers.i.toNat + k) = (m.stored i).getD k 0 := by
  obtain ⟨-, flow, n, -, hmachine, heffect⟩ := effect_of_aboutTo hi h hobjection keys
  have hmemory : (m.step keys).machine.memory =
      m.memory.store m.registers.i.toNat (m.stored i) := by
    rw [hmachine]
    exact heffect.memory
  rw [hmemory, Memory.get_store _ _ _ _ (by omega), if_pos (by omega), Nat.add_sub_cancel_left]

/-- What has been stored is loaded again, after any acts that have not touched it. -/
theorem load_after_store (hi : i.WellFormed) (h : m.AboutTo i.encode)
    (hobjection : objection m.registers i = none) {x : Fin 16}
    (hx : (m.stored i).length = x.val + 1)
    (hwithin : m.registers.i.toNat + (x.val + 1) ≤ Memory.size) (keys keys' : Keypad)
    {acts : List Act}
    (huntouched : (m.step keys).machine.Untouched acts m.registers.i.toNat (x.val + 1)) :
    let n := (m.step keys).machine.after acts
    n.AboutTo (Word.ofImmediate 0xf x 0x65) → n.registers.i = m.registers.i →
      (n.step keys').fault = none ∧
      (n.step keys').machine.registers.i.toNat = m.past (x.val + 1) ∧
      ∀ y, (n.step keys').machine.v y = if y ≤ x then (m.stored i).getD y.val 0 else n.v y := by
  intro n hload hindex
  have hdialect : n.dialect = m.dialect :=
    ((m.step keys).machine.dialect_after acts).trans (m.dialect_act (.step keys))
  have hpast : n.past (x.val + 1) = m.past (x.val + 1) := by
    rw [past, past, hindex, hdialect]
  obtain ⟨hfault, hleft, hv⟩ := load_of_aboutTo hload (hindex ▸ hwithin) keys'
  refine ⟨hfault, hleft.trans hpast, fun y => (hv y).trans ?_⟩
  by_cases hy : y ≤ x
  · have hlt : y.val < x.val + 1 := Nat.lt_succ_of_le hy
    rw [if_pos hy, if_pos hy, hindex, get_after_of_untouched huntouched hlt hwithin,
      store_of_aboutTo hi h (hx ▸ hwithin) hobjection keys (hx ▸ hlt)]
  · rw [if_neg hy, if_neg hy]

theorem getD_stored_storeRegs {x y : Fin 16} (hy : y ≤ x) :
    (m.stored (.storeRegs x)).getD y.val 0 = m.v y := by
  have hlt : y.val < x.val + 1 := Nat.lt_succ_of_le hy
  simp [stored, List.getElem?_take_of_lt hlt, v, Table.entry]

/-- The three digits of a byte. -/
theorem toNat_bcd (value : UInt8) :
    ((bcd value).getD 0 0).toNat ≤ 9 ∧ ((bcd value).getD 1 0).toNat ≤ 9 ∧
    ((bcd value).getD 2 0).toNat ≤ 9 ∧
    100 * ((bcd value).getD 0 0).toNat + 10 * ((bcd value).getD 1 0).toNat +
      ((bcd value).getD 2 0).toNat = value.toNat := by
  have hvalue := value.toNat_lt
  simp [bcd]
  omega

/-- **Registers and digits come back from memory.** Let a machine store V0 to VX, or the decimal
    digits of VX, in memory, let any acts follow that do not write to the bytes stored, and let it
    then load from the same address: V0 to VX again, or V0 to V2. Neither cycle is at fault. V0 to
    VX are what they were at the store, all others what they were just before the load; V0 to V2 are
    digits, and they make up the byte. A transfer of registers leaves the index register where it
    was, or in the dialects that move it, right behind the bytes. -/
theorem transfers_round_trip (m : Machine) (keys : Keypad) (x : Fin 16) :
    let addr := m.registers.i.toNat
    let stored := m.step keys
    (m.AboutTo (Word.ofImmediate 0xf x 0x55) → addr + x.val < 4096 →
      stored.fault = none ∧
      stored.machine.registers.i.toNat = m.past (x.val + 1) ∧
      ∀ acts, stored.machine.Untouched acts addr (x.val + 1) →
        let n := stored.machine.after acts
        n.AboutTo (Word.ofImmediate 0xf x 0x65) → n.registers.i = m.registers.i →
        ∀ keys',
          let loaded := n.step keys'
          loaded.fault = none ∧
          loaded.machine.registers.i.toNat = m.past (x.val + 1) ∧
          ∀ y, loaded.machine.v y = if y ≤ x then m.v y else n.v y) ∧
    (m.AboutTo (Word.ofImmediate 0xf x 0x33) → addr + 2 < 4096 →
      stored.fault = none ∧
      ∀ acts, stored.machine.Untouched acts addr 3 →
        let n := stored.machine.after acts
        n.AboutTo (Word.ofImmediate 0xf 2 0x65) → n.registers.i = m.registers.i →
        ∀ keys',
          let loaded := n.step keys'
          loaded.fault = none ∧
          (loaded.machine.v 0).toNat ≤ 9 ∧ (loaded.machine.v 1).toNat ≤ 9 ∧
          (loaded.machine.v 2).toNat ≤ 9 ∧
          100 * (loaded.machine.v 0).toNat + 10 * (loaded.machine.v 1).toNat +
            (loaded.machine.v 2).toNat = (m.v x).toNat) := by
  intro addr stored
  constructor
  · intro h hwithin
    have hobjection : objection m.registers (.storeRegs x) = none :=
      Memory.overrun_eq_none_iff.mpr hwithin
    obtain ⟨hfault, flow, n, -, hmachine, heffect⟩ :=
      effect_of_aboutTo (i := .storeRegs x) trivial h hobjection keys
    have hleft : stored.machine.registers.i = m.indexPast (x.val + 1) :=
      (congrArg (·.registers.i) hmachine).trans heffect.index
    refine ⟨hfault, by rw [hleft, toNat_indexPast hwithin], ?_⟩
    intro acts huntouched n hload hindex keys'
    obtain ⟨hfault', hleft', hv⟩ := load_after_store (i := .storeRegs x) trivial h hobjection
      (length_stored_storeRegs m x) hwithin keys keys' huntouched hload hindex
    refine ⟨hfault', hleft', fun y => (hv y).trans ?_⟩
    by_cases hy : y ≤ x
    · rw [if_pos hy, if_pos hy, getD_stored_storeRegs hy]
    · rw [if_neg hy, if_neg hy]
  · intro h hwithin
    have hobjection : objection m.registers (.storeBcd x) = none :=
      Memory.overrun_eq_none_iff.mpr hwithin
    obtain ⟨hfault, -⟩ := effect_of_aboutTo (i := .storeBcd x) trivial h hobjection keys
    refine ⟨hfault, ?_⟩
    intro acts huntouched n hload hindex keys'
    obtain ⟨hfault', -, hv⟩ := load_after_store (i := .storeBcd x) (x := 2) trivial h hobjection
      rfl hwithin keys keys' huntouched hload hindex
    refine ⟨hfault', ?_⟩
    rw [hv 0, hv 1, hv 2]
    exact toNat_bcd (m.v x)

/-- A program that stores V0 and V1 at 0x300, clears V0 and loads them again from there. -/
def storesAndLoads : Act :=
  .load (.ofBytes [0x60, 0x07, 0xa3, 0x00, 0xf1, 0x55, 0x60, 0x00, 0xa3, 0x00, 0xf1, 0x65])

/-- A program that stores the digits of 156 at the index register and loads them. -/
def storesDigits : Act :=
  .load (.ofBytes [0x65, 0x9c, 0xf5, 0x33, 0xf2, 0x65])

/-- The seven that was in V0 comes back, and where transfers move the index register, it is left
    behind both bytes. The digits of 156 come back as well, after a frame has ended. -/
theorem storesAndLoads_restores :
    let cycle := Act.step .idle
    let start := fresh { loadStoreBumpsIndex := true } 0
    let m := start.after [storesAndLoads, cycle, cycle]
    let n := (m.step .idle).machine.after [cycle, cycle]
    let loaded := (n.step .idle).machine
    let m' := start.after [storesDigits, cycle]
    let n' := (m'.step .idle).machine.after [.tick]
    let loaded' := (n'.step .idle).machine
    (m.AboutTo (Word.ofImmediate 0xf 1 0x55) ∧ m.registers.i.toNat + 1 < 4096 ∧
      (m.step .idle).machine.Untouched [cycle, cycle] m.registers.i.toNat 2 ∧
      n.AboutTo (Word.ofImmediate 0xf 1 0x65) ∧ n.registers.i = m.registers.i ∧
      m.v 0 = 7 ∧ n.v 0 = 0 ∧ loaded.v 0 = 7 ∧ loaded.registers.i.toNat = 0x302) ∧
    m'.AboutTo (Word.ofImmediate 0xf 5 0x33) ∧ m'.registers.i.toNat + 2 < 4096 ∧
    (m'.step .idle).machine.Untouched [.tick] m'.registers.i.toNat 3 ∧
    n'.AboutTo (Word.ofImmediate 0xf 2 0x65) ∧ n'.registers.i = m'.registers.i ∧
    100 * (loaded'.v 0).toNat + 10 * (loaded'.v 1).toNat + (loaded'.v 2).toNat = 156 := by
  intro cycle start m n loaded m' n' loaded'
  obtain ⟨hstore, hwithin, huntouched, hload, hindex, hpast, hseven, hcleared⟩ :
      m.AboutTo (Word.ofImmediate 0xf 1 0x55) ∧ m.registers.i.toNat + 1 < 4096 ∧
      (m.step .idle).machine.Untouched [cycle, cycle] m.registers.i.toNat 2 ∧
      n.AboutTo (Word.ofImmediate 0xf 1 0x65) ∧ n.registers.i = m.registers.i ∧
      m.past 2 = 0x302 ∧ m.v 0 = 7 ∧ n.v 0 = 0 := by
    decide +kernel
  obtain ⟨hstore', hwithin', huntouched', hload', hindex', hvalue⟩ :
      m'.AboutTo (Word.ofImmediate 0xf 5 0x33) ∧ m'.registers.i.toNat + 2 < 4096 ∧
      (m'.step .idle).machine.Untouched [.tick] m'.registers.i.toNat 3 ∧
      n'.AboutTo (Word.ofImmediate 0xf 2 0x65) ∧ n'.registers.i = m'.registers.i ∧
      m'.v 5 = 156 := by
    decide +kernel
  -- the runs have been computed, and the rest holds of any machines of which these facts hold
  clear_value m m'
  obtain ⟨-, -, hround⟩ := (transfers_round_trip m .idle 1).1 hstore hwithin
  obtain ⟨-, hleft, hv⟩ := hround [cycle, cycle] huntouched hload hindex .idle
  obtain ⟨-, hdigits⟩ := (transfers_round_trip m' .idle 5).2 hstore' hwithin'
  obtain ⟨-, -, -, -, hsum⟩ := hdigits [.tick] huntouched' hload' hindex' .idle
  rw [hvalue] at hsum
  exact ⟨⟨hstore, hwithin, huntouched, hload, hindex, hseven, hcleared, (hv 0).trans hseven,
    hleft.trans hpast⟩, hstore', hwithin', huntouched', hload', hindex', hsum⟩

end Machine

end Chip8
