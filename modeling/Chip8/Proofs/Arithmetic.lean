import Chip8.Proofs.Decoding
import Chip8.Proofs.History

set_option autoImplicit false

/-! # Arithmetic with a flag

Five instructions of family 8 leave a result in VX and a flag in VF: the sum, the two differences
and the two shifts. Here they are told in integers. The flag is what does not fit into the byte (a
carry, the lack of a borrow, or the bit that a shift pushes out), so the result is exact once the
new flag is taken into account (`toNat_value`). All operands are read before anything is written,
and the flag is written last: the registers may coincide in any way, and with VX the flag register
itself the result is lost and the flag stays (`arithmetic_exact_with_flag`). -/

namespace Chip8

open Instruction (decode decode_encode)

/-- The operations that leave a flag. -/
inductive FlagOp where
  | add
  | sub
  | shiftRight
  | subReverse
  | shiftLeft

namespace FlagOp

/-- The last digit of the words 8XY4, 8XY5, 8XY6, 8XY7 and 8XYE. -/
def digit : FlagOp → Fin 16
  | add => 0x4
  | sub => 0x5
  | shiftRight => 0x6
  | subReverse => 0x7
  | shiftLeft => 0xe

def instruction (x y : Fin 16) : FlagOp → Instruction
  | add => .addReg x y
  | sub => .subReg x y
  | shiftRight => .shiftRight x y
  | subReverse => .subReverse x y
  | shiftLeft => .shiftLeft x y

theorem decode_word (op : FlagOp) (x y : Fin 16) :
    decode (.ofDigits 0x8 x y op.digit) = op.instruction x y := by
  have hword : .ofDigits 0x8 x y op.digit = (op.instruction x y).encode := by
    cases op <;> rfl
  rw [hword]
  exact decode_encode (by cases op <;> trivial)

/-! ## In integers -/

/-- Does the flag go up, with `a` in VX, `b` in VY and `s` to be shifted? -/
def raises (a b s : Nat) : FlagOp → Bool
  | add => a + b > 255
  | sub => a ≥ b
  | shiftRight => s % 2 = 1
  | subReverse => b ≥ a
  | shiftLeft => s ≥ 128

/-- The exact result, given the new flag. -/
def result (a b s flag : Int) : FlagOp → Int
  | add => a + b - 256 * flag
  | sub => a - b + 256 * (1 - flag)
  | shiftRight => (s - flag) / 2
  | subReverse => b - a + 256 * (1 - flag)
  | shiftLeft => 2 * s - 256 * flag

/-- The byte that is put into VX. -/
def value (a b s : UInt8) : FlagOp → UInt8
  | add => a + b
  | sub => a - b
  | shiftRight => s >>> 1
  | subReverse => b - a
  | shiftLeft => s <<< 1

theorem toNat_sub_borrow (a b : UInt8) :
    ((a - b).toNat : Int) = a.toNat - b.toNat + 256 * (1 - if a.toNat ≥ b.toNat then 1 else 0) := by
  have ha := a.toNat_lt
  have hb := b.toNat_lt
  rw [UInt8.toNat_sub]
  split <;> omega

/-- The byte is the exact result. -/
theorem toNat_value (op : FlagOp) (a b s : UInt8) :
    ((op.value a b s).toNat : Int) =
      op.result a.toNat b.toNat s.toNat
        (if op.raises a.toNat b.toNat s.toNat then 1 else 0) := by
  have ha := a.toNat_lt
  have hb := b.toNat_lt
  have hs := s.toNat_lt
  cases op with simp only [value, result, raises, decide_eq_true_eq]
  | add =>
    rw [UInt8.toNat_add]
    split <;> omega
  | sub => exact toNat_sub_borrow a b
  | shiftRight =>
    have hshift : (s >>> 1).toNat = s.toNat / 2 := by
      rw [UInt8.toNat_shiftRight, Nat.shiftRight_eq_div_pow]
      rfl
    rw [hshift]
    split <;> omega
  | subReverse => exact toNat_sub_borrow b a
  | shiftLeft =>
    have hshift : (s <<< 1).toNat = s.toNat * 2 % 256 := by
      rw [UInt8.toNat_shiftLeft, Nat.shiftLeft_eq]
      rfl
    rw [hshift]
    split <;> omega

end FlagOp

namespace Machine

/-- The operations read all of their operands before they write anything. -/
theorem execute_flagOp (m : Machine) (keys : Keypad) (op : FlagOp) (x y : Fin 16) :
    m.execute keys (op.instruction x y) =
      (.ok .next, m.setResult x (op.value (m.v x) (m.v y) (m.shiftSource x y))
        (op.raises (m.v x).toNat (m.v y).toNat (m.shiftSource x y).toNat)) := by
  have hodd (s : UInt8) : (s % 2 == 1) = decide (s.toNat % 2 = 1) := by
    rw [Bool.eq_iff_iff, beq_iff_eq, decide_eq_true_iff, ← UInt8.toNat_inj, UInt8.toNat_mod]
    rfl
  have htop (s : UInt8) : decide (s ≥ 128) = decide (s.toNat ≥ 128) := rfl
  cases op with
  | add => rfl
  | sub | subReverse =>
    simp only [FlagOp.instruction, execute, FlagOp.value, FlagOp.raises, ge_iff_le,
      UInt8.le_iff_toNat_le]
  | shiftRight =>
    rw [FlagOp.raises, ← hodd]
    rfl
  | shiftLeft =>
    rw [FlagOp.raises, ← htop]
    rfl

/-- **Arithmetic is exact with its flag.** Let a machine be about to execute a word 8XY4, 8XY5,
    8XY6, 8XY7 or 8XYE, with `a` in VX and `b` in VY, and let `s` be what the dialect shifts.
    Whichever of X, Y and F are the same, the cycle succeeds and puts the flag up or down as the
    operation says, and with X other than F it puts the exact result into VX. -/
theorem arithmetic_exact_with_flag (m : Machine) (keys : Keypad) (op : FlagOp) (x y : Fin 16)
    (h : m.AboutTo (Word.ofDigits 0x8 x y op.digit)) :
    let a := (m.v x).toNat
    let b := (m.v y).toNat
    let s := if m.dialect.shiftUsesVy then b else a
    let flag := if op.raises a b s then 1 else 0
    let m' := (m.step keys).machine
    (m.step keys).fault = none ∧ (m'.v 0xf).toNat = flag ∧
      (x ≠ 0xf → ((m'.v x).toNat : Int) = op.result a b s flag) := by
  intro a b s flag m'
  have hs : (m.shiftSource x y).toNat = s := by
    unfold shiftSource
    exact apply_ite UInt8.toNat _ _ _
  obtain ⟨hfault, hmachine⟩ := step_of_execute h
    (op.decode_word x y ▸ m.execute_flagOp keys op x y)
  rw [hs] at hmachine
  have hv (z : Fin 16) : m'.v z =
      (m.setResult x (op.value (m.v x) (m.v y) (m.shiftSource x y)) (op.raises a b s)).v z :=
    (congrArg (fun n : Machine => n.v z) hmachine).trans rfl
  refine ⟨hfault, ?_, fun hx => ?_⟩
  · have hup : m'.v 0xf = if op.raises a b s then 1 else 0 :=
      (hv 0xf).trans ((v_setResult _ _ _ _ _).trans (if_pos rfl))
    rw [hup]
    exact apply_ite UInt8.toNat _ _ _
  · have hflag : ((flag : Nat) : Int) = if op.raises a b s then 1 else 0 :=
      apply_ite Nat.cast _ _ _
    have hx' : Registers.flag ≠ x := hx.symm
    rw [hv, v_setResult, if_neg hx', if_pos rfl, op.toNat_value, hs, hflag]

/-- A program that takes seven from five. -/
def fiveLessSeven : Act := .load (.ofBytes [0x60, 0x05, 0x61, 0x07, 0x80, 0x15])

/-- It leaves two less than 256, with the flag down. -/
theorem fiveLessSeven_borrows :
    let m := (fresh {} 0).after [fiveLessSeven, .step .idle, .step .idle]
    m.AboutTo (Word.ofDigits 0x8 0 1 FlagOp.sub.digit) ∧
    ((m.step .idle).machine.v 0xf).toNat = 0 ∧
    (((m.step .idle).machine.v 0).toNat : Int) = 254 := by
  generalize hm : (fresh {} 0).after [fiveLessSeven, .step .idle, .step .idle] = m
  obtain ⟨h, hfive, hseven⟩ : m.AboutTo (Word.ofDigits 0x8 0 1 FlagOp.sub.digit) ∧
      m.v 0 = 5 ∧ m.v 1 = 7 := by
    subst hm
    decide +kernel
  obtain ⟨-, hflag, hresult⟩ := arithmetic_exact_with_flag m .idle .sub 0 1 h
  rw [hfive, hseven] at hflag hresult
  exact ⟨h, hflag, hresult (by decide)⟩

end Machine

end Chip8
