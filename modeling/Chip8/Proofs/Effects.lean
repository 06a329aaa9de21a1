import Chip8.Proofs.Execution

set_option autoImplicit false

/-! # What an instruction does

A successful instruction told part by part, as a table on the instruction: the bytes that it stores
from the index register on (`stored`), the registers that it may set (`Targets`), the index register
after it (`indexAfter`), whether it paints the screen (`paints`), and where it leads (`flowOf`). The
table is read off the executor once (`effect_of_execute`). What it says of the call stack and of the
activity is in `Course`, and of the timers, the dialect and the random stream in
`Chip8.Proofs.Aside`. -/

namespace Chip8

/-- May the instruction set the register `y`? -/
def Instruction.Targets (y : Fin 16) : Instruction → Prop
  | .loadImm x _ | .addImm x _ | .move x _ | .or x _ | .and x _ | .xor x _ | .random x _
  | .getDelay x => y = x
  | .addReg x _ | .subReg x _ | .subReverse x _ | .shiftRight x _ | .shiftLeft x _ =>
    y = x ∨ y = Registers.flag
  | .draw _ _ _ => y = Registers.flag
  | .loadRegs x => y ≤ x
  | _ => False

/-- Does the instruction paint the screen? -/
def Instruction.paints : Instruction → Bool
  | .clearScreen | .draw _ _ _ => true
  | _ => false

namespace Machine

/-- The bytes that an instruction stores from the index register on. -/
def stored (m : Machine) : Instruction → List UInt8
  | .storeBcd x => bcd (m.v x)
  | .storeRegs x => m.registers.v.toList.take (x.val + 1)
  | _ => []

/-- The bytes from the index register on that an instruction loads into V0 to VX. -/
def loaded (m : Machine) (x : Fin 16) : List UInt8 :=
  (List.range (x.val + 1)).map fun k => m.memory.get (m.registers.i.toNat + k)

/-- The index register past `count` bytes, in the dialects that move it there. -/
def indexPast (m : Machine) (count : Nat) : UInt16 :=
  if m.dialect.loadStoreBumpsIndex then m.registers.i + UInt16.ofNat count else m.registers.i

/-- The index register after an instruction. -/
def indexAfter (m : Machine) : Instruction → UInt16
  | .loadIndex addr => addr
  | .addIndex x => m.registers.i + (m.v x).toUInt16
  | .fontGlyph x => Memory.fontStart + (m.v x % 16).toUInt16 * Memory.glyphBytes
  | .storeRegs x | .loadRegs x => m.indexPast (x.val + 1)
  | _ => m.registers.i

/-- Where an instruction leads. -/
def flowOf (m : Machine) (keys : Keypad) : Instruction → Flow
  | .ret => .jump (m.registers.stack.getD (m.registers.sp - 1) 0)
  | .jump addr | .call addr => .jump addr
  | .jumpOffset addr => .jump (addr + (m.v 0).toUInt16)
  | .skipEqImm x nn => .skipIf (m.v x == nn)
  | .skipNeImm x nn => .skipIf (m.v x != nn)
  | .skipEqReg x y => .skipIf (m.v x == m.v y)
  | .skipNeReg x y => .skipIf (m.v x != m.v y)
  | .skipKeyPressed x => .skipIf (keys.isPressed (m.v x))
  | .skipKeyReleased x => .skipIf !keys.isPressed (m.v x)
  | _ => .next

/-- What a successful instruction does to the machine `m`, and where it leads. -/
structure Effect (m : Machine) (keys : Keypad) (i : Instruction) (flow : Flow) (m' : Machine) :
    Prop where
  memory : m'.memory = m.memory.store m.registers.i.toNat (m.stored i)
  screen : i.paints = false → m'.screen = m.screen
  index : m'.registers.i = m.indexAfter i
  v : ∀ y, ¬ i.Targets y → m'.v y = m.v y
  flow : flow = m.flowOf keys i

variable {m m' : Machine} {keys : Keypad} {flow : Flow}

/-! ## Instructions that check something first -/

theorem ok_of_elim {wrong : Option FaultKind} {m₁ : Machine}
    (h : (wrong.elim (Except.ok .next, m₁) fun kind => (.error kind, m) : Executed) =
      (.ok flow, m')) : flow = .next ∧ m' = m₁ := by
  cases wrong with
  | none =>
    cases h
    exact ⟨rfl, rfl⟩
  | some kind => cases h

theorem length_stored_storeRegs (m : Machine) (x : Fin 16) :
    (m.stored (.storeRegs x)).length = x.val + 1 := by
  have hx := x.isLt
  rw [stored, List.length_take, Vector.length_toList]
  omega

theorem length_loaded (m : Machine) (x : Fin 16) : (m.loaded x).length = x.val + 1 := by
  rw [loaded, List.length_map, List.length_range]

/-- Every successful instruction goes by the table. -/
theorem effect_of_execute {i : Instruction} (h : m.execute keys i = (.ok flow, m')) :
    Effect m keys i flow m' := by
  cases i
  case ret =>
    by_cases hsp : m.registers.sp = 0
    · simp [execute, Registers.pop, hsp] at h
    · simp only [execute, Registers.pop, if_neg hsp] at h
      cases h
      exact ⟨rfl, fun _ => rfl, rfl, fun _ _ => rfl, rfl⟩
  case call addr =>
    by_cases hsp : m.registers.sp < stackDepth
    · simp only [execute, Registers.push, dif_pos hsp] at h
      cases h
      exact ⟨rfl, fun _ => rfl, rfl, fun _ _ => rfl, rfl⟩
    · simp [execute, Registers.push, hsp] at h
  case draw x y n =>
    obtain ⟨kind, -, hdraw⟩ | ⟨-, hit, screen, hdraw⟩ := m.draw_cases x y n
    · cases hdraw.symm.trans h
    · cases hdraw.symm.trans h
      refine ⟨rfl, fun hdark => absurd hdark.symm Bool.false_ne_true, rfl, fun y hy => ?_, rfl⟩
      exact (Registers.v_setV _ _ _ _).trans (if_neg (Ne.symm hy))
  case storeBcd x =>
    obtain ⟨rfl, rfl⟩ := ok_of_elim ((m.storeAtIndex_eq _ _).symm.trans h)
    exact ⟨rfl, fun _ => rfl, rfl, fun _ _ => rfl, rfl⟩
  case storeRegs x =>
    obtain ⟨rfl, rfl⟩ := ok_of_elim
      ((m.storeAtIndex_eq (m.stored (.storeRegs x)) (·.bumpIndex (x.val + 1))).symm.trans h)
    rw [bumpIndex_eq_setIndex]
    exact ⟨rfl, fun _ => rfl, rfl, fun _ _ => rfl, rfl⟩
  case loadRegs x =>
    have hexec := (loadRegs_eq m keys x).symm.trans h
    -- only two things matter of the registers that are loaded
    have hindex : (m.registers.setFirst (m.loaded x)).i = m.registers.i := by
      rw [Registers.setFirst]
    have hkept : ∀ y, ¬ y ≤ x → (m.registers.setFirst (m.loaded x)).v.entry y = m.v y :=
      fun y hy => Registers.v_setFirst_of_le _ (m.length_loaded x ▸ Nat.not_le.mp hy)
    rw [← loaded] at hexec
    generalize m.registers.setFirst (m.loaded x) = loadedFile at hexec hindex hkept
    obtain ⟨rfl, rfl⟩ := ok_of_elim hexec
    rw [bumpIndex_eq_setIndex, hindex]
    exact ⟨rfl, fun _ => rfl, rfl, hkept, rfl⟩
  case loadImm | addImm | move | or | and | xor | random | getDelay =>
    cases h
    exact ⟨rfl, fun _ => rfl, rfl, fun y hy => (v_setV _ _ _ _).trans (if_neg (Ne.symm hy)), rfl⟩
  case addReg | subReg | subReverse | shiftRight | shiftLeft =>
    cases h
    refine ⟨rfl, fun _ => rfl, rfl, fun y hy => ?_, rfl⟩
    obtain ⟨hx, hflag⟩ := not_or.mp hy
    rw [v_setResult, if_neg (Ne.symm hflag), if_neg (Ne.symm hx)]
  case clearScreen =>
    cases h
    exact ⟨rfl, fun hdark => absurd hdark.symm Bool.false_ne_true, rfl, fun _ _ => rfl, rfl⟩
  -- the rest sets no register and paints nothing
  all_goals
    cases h
    exact ⟨rfl, fun _ => rfl, rfl, fun _ _ => rfl, rfl⟩

end Machine

end Chip8
