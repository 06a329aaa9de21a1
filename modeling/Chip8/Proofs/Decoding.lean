import Chip8.Instruction.Basic

set_option autoImplicit false

/-! # Reading what was written

Every word is read as an instruction that leads back to it (`Instruction.encode_decode`). The other
way round some instructions cannot be written at all: an address has twelve bits only, two words of
family 0 mean something other than a routine in machine code, and a word that is assigned to an
instruction is not an unassigned one. The rest is `Instruction.WellFormed`, and each of these is
read back from its word (`decode_encode`). -/

namespace Chip8

/-- Is the word assigned to an instruction? Of the families 5, 8, 9, E and F only some words are. -/
def Word.Assigned (w : Word) : Prop :=
  match w.family with
  | 0x5 | 0x9 => w.n = 0x0
  | 0x8 => w.n ≤ 0x7 ∨ w.n = 0xe
  | 0xe => w.nn = 0x9e ∨ w.nn = 0xa1
  | 0xf => w.nn ∈ [0x07, 0x0a, 0x15, 0x18, 0x1e, 0x29, 0x33, 0x55, 0x65]
  | _ => True

namespace Instruction

/-- The instructions that there are words for. -/
def WellFormed : Instruction → Prop
  | .machineCall addr => addr.toNat < 4096 ∧ addr ≠ 0x0e0 ∧ addr ≠ 0x0ee
  | .jump addr | .call addr | .loadIndex addr | .jumpOffset addr => addr.toNat < 4096
  | .unknown word => ¬ word.Assigned
  | _ => True

/-- No rule of the decoder takes a word that is not assigned. -/
theorem decode_of_not_assigned {w : Word} (h : ¬ w.Assigned) : decode w = .unknown w := by
  unfold Word.Assigned at h
  split at h
  case h_1 hfamily | h_2 hfamily =>
    rw [decode, hfamily]
    exact if_neg h
  case h_3 hfamily =>
    rw [decode, hfamily]
    simp only [decodeArithmetic]
    split <;> simp_all
  case h_4 hfamily =>
    rw [decode, hfamily]
    simp only [decodeKey]
    split <;> simp_all
  case h_5 hfamily =>
    rw [decode, hfamily]
    simp only [decodeMisc]
    split <;> simp_all
  case h_6 => exact absurd trivial h

/-- A word of family 0 other than the two that are taken calls machine code. -/
theorem decode_machineCall {w : Word} (hfamily : w.family = 0x0) (hclear : w ≠ 0x00e0)
    (hret : w ≠ 0x00ee) : decode w = .machineCall w.nnn := by
  rw [decode, hfamily]
  exact (if_neg hclear).trans (if_neg hret)

/-- An instruction is read back from the word that it is written as. -/
theorem decode_encode {i : Instruction} (h : i.WellFormed) : decode i.encode = i := by
  cases i
  case clearScreen | ret => rfl
  case machineCall addr =>
    obtain ⟨haddr, hclear, hret⟩ := h
    have hsame : addr.toNat % 4096 = addr.toNat := Nat.mod_eq_of_lt haddr
    have hval := Word.toNat_ofAddress 0x0 addr
    rw [encode, decode_machineCall (Word.family_ofAddress _ _), Word.nnn_ofAddress _ haddr]
    · intro hw
      rw [hw] at hval
      exact hclear (UInt16.toNat_inj.1 (by simp at hval ⊢; omega))
    · intro hw
      rw [hw] at hval
      exact hret (UInt16.toNat_inj.1 (by simp at hval ⊢; omega))
  case unknown w => exact decode_of_not_assigned h
  -- the digits that tell the others apart can be read off the word as it is written
  all_goals
    simp_all [encode, decode, WellFormed, Word.nnn_ofAddress, decodeArithmetic, decodeKey,
      decodeMisc]

end Instruction

end Chip8
