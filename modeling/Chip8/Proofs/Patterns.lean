import Chip8.Instruction.Text
import Chip8.Proofs.Decoding
import Mathlib.Data.List.Forall2
import Mathlib.Data.Set.Function

set_option autoImplicit false

/-! # The patterns of the words

Descriptions of the instruction set list the words by their pattern, four places wide: a digit
stands for itself, X and Y for registers, and N for a digit of a number. A word is assigned just
when it fits the pattern of some instruction (`Word.assigned_iff_fits`). An instruction is written
as a word that fits its own pattern (`Instruction.fits_encode`) and has its operands where the
letters stand (`Instruction.field_encode`), so the patterns leave no choice in how to write it.
Since reading and writing take each other back, words and well-formed instructions are in
bijection. -/

namespace Chip8

/-! ## Patterns -/

/-- What a pattern has at one of its four places. -/
inductive Sign where
  | digit (d : Fin 16)
  | x
  | y
  | n
  deriving DecidableEq

/-- Can the sign stand for the digit? -/
def Sign.Takes : Sign → Fin 16 → Prop
  | digit v, d => d = v
  | x, _ | y, _ | n, _ => True

/-- The pattern of the words that an instruction is written as; the words that are not assigned have
    none. -/
def Instruction.pattern : Instruction → Option (List Sign)
  | .clearScreen => some [.digit 0x0, .digit 0x0, .digit 0xe, .digit 0x0]
  | .ret => some [.digit 0x0, .digit 0x0, .digit 0xe, .digit 0xe]
  | .machineCall _ => some [.digit 0x0, .n, .n, .n]
  | .jump _ => some [.digit 0x1, .n, .n, .n]
  | .call _ => some [.digit 0x2, .n, .n, .n]
  | .skipEqImm _ _ => some [.digit 0x3, .x, .n, .n]
  | .skipNeImm _ _ => some [.digit 0x4, .x, .n, .n]
  | .skipEqReg _ _ => some [.digit 0x5, .x, .y, .digit 0x0]
  | .loadImm _ _ => some [.digit 0x6, .x, .n, .n]
  | .addImm _ _ => some [.digit 0x7, .x, .n, .n]
  | .move _ _ => some [.digit 0x8, .x, .y, .digit 0x0]
  | .or _ _ => some [.digit 0x8, .x, .y, .digit 0x1]
  | .and _ _ => some [.digit 0x8, .x, .y, .digit 0x2]
  | .xor _ _ => some [.digit 0x8, .x, .y, .digit 0x3]
  | .addReg _ _ => some [.digit 0x8, .x, .y, .digit 0x4]
  | .subReg _ _ => some [.digit 0x8, .x, .y, .digit 0x5]
  | .shiftRight _ _ => some [.digit 0x8, .x, .y, .digit 0x6]
  | .subReverse _ _ => some [.digit 0x8, .x, .y, .digit 0x7]
  | .shiftLeft _ _ => some [.digit 0x8, .x, .y, .digit 0xe]
  | .skipNeReg _ _ => some [.digit 0x9, .x, .y, .digit 0x0]
  | .loadIndex _ => some [.digit 0xa, .n, .n, .n]
  | .jumpOffset _ => some [.digit 0xb, .n, .n, .n]
  | .random _ _ => some [.digit 0xc, .x, .n, .n]
  | .draw _ _ _ => some [.digit 0xd, .x, .y, .n]
  | .skipKeyPressed _ => some [.digit 0xe, .x, .digit 0x9, .digit 0xe]
  | .skipKeyReleased _ => some [.digit 0xe, .x, .digit 0xa, .digit 0x1]
  | .getDelay _ => some [.digit 0xf, .x, .digit 0x0, .digit 0x7]
  | .waitKey _ => some [.digit 0xf, .x, .digit 0x0, .digit 0xa]
  | .setDelay _ => some [.digit 0xf, .x, .digit 0x1, .digit 0x5]
  | .setSound _ => some [.digit 0xf, .x, .digit 0x1, .digit 0x8]
  | .addIndex _ => some [.digit 0xf, .x, .digit 0x1, .digit 0xe]
  | .fontGlyph _ => some [.digit 0xf, .x, .digit 0x2, .digit 0x9]
  | .storeBcd _ => some [.digit 0xf, .x, .digit 0x3, .digit 0x3]
  | .storeRegs _ => some [.digit 0xf, .x, .digit 0x5, .digit 0x5]
  | .loadRegs _ => some [.digit 0xf, .x, .digit 0x6, .digit 0x5]
  | .unknown _ => none

namespace Word

/-- Does the word look like the pattern? -/
def Fits (w : Word) (pattern : List Sign) : Prop :=
  List.Forall₂ Sign.Takes pattern [w.family, w.x, w.y, w.n]

/-- What a word has at the letters of an operand: x and y for the registers, n for the last digit,
    nn for the last two and addr for the last three. -/
def field (w : Word) (name : String) : Nat :=
  match name with
  | "x" => w.x.val
  | "y" => w.y.val
  | "n" => w.n.val
  | "nn" => w.nn.toNat
  | _ => w.nnn.toNat

/-! ## Digits of an immediate -/

/-- The low byte is its two digits. -/
theorem nn_eq_of_digits {w : Word} {y n : Fin 16} (hy : w.y = y) (hn : w.n = n) :
    w.nn = UInt8.ofNat (16 * y.val + n.val) := by
  subst hy hn
  apply UInt8.toNat_inj.1
  simp only [nn, Word.y, Word.n, UInt8.toNat_ofNat', Fin.val_ofNat]
  omega

@[simp] theorem y_ofImmediate (c x : Fin 16) (nn : UInt8) :
    (ofImmediate c x nn).y = Fin.ofNat 16 (nn.toNat / 16) := by
  have hnn := nn.toNat_lt
  apply Fin.ext
  rw [y, Fin.val_ofNat, Fin.val_ofNat, toNat_ofImmediate]
  omega

@[simp] theorem n_ofImmediate (c x : Fin 16) (nn : UInt8) :
    (ofImmediate c x nn).n = Fin.ofNat 16 nn.toNat := by
  have hnn := nn.toNat_lt
  apply Fin.ext
  rw [n, Fin.val_ofNat, Fin.val_ofNat, toNat_ofImmediate]
  omega

end Word

namespace Instruction

/-- An instruction is written as a word that looks like its pattern. -/
theorem fits_encode {i : Instruction} {p : List Sign} (h : i.pattern = some p) :
    i.encode.Fits p := by
  cases i <;> cases h <;> simp [encode, Word.Fits, Sign.Takes] <;> decide

/-- The operands of an instruction stand in the word that it is written as. -/
theorem field_encode {i : Instruction} (h : i.WellFormed) :
    ∀ operand ∈ i.operands, i.encode.field operand.1 = operand.2 := by
  cases i <;> simp_all [operands, encode, Word.field, WellFormed, Word.nnn_ofAddress]

/-- What stands in a word is as large as its digits allow. -/
theorem operand_decode_lt (w : Word) :
    ∀ operand ∈ (decode w).operands,
      operand.2 < if operand.1 = "addr" then 4096 else if operand.1 = "nn" then 256 else 16 := by
  have hnnn := w.nnn_lt
  have hnn := w.nn.toNat_lt
  unfold decode decodeArithmetic decodeKey decodeMisc
  split
  all_goals repeat' split
  all_goals simp [operands, *]

end Instruction

/-- A word that looks like the pattern of an instruction is assigned to one. -/
theorem Word.assigned_of_fits {w : Word} {i : Instruction} {p : List Sign}
    (hp : i.pattern = some p) (h : w.Fits p) : w.Assigned := by
  cases i <;> cases hp
  all_goals
    simp only [Fits, List.forall₂_cons, Sign.Takes] at h
    obtain ⟨hfamily, -, hy, hn, -⟩ := h
  -- the members of the families E and F are told apart by the low byte, not by its digits
  case skipKeyPressed | skipKeyReleased =>
    simp only [Assigned, hfamily, nn_eq_of_digits hy hn]
    decide
  case getDelay | waitKey | setDelay | setSound | addIndex | fontGlyph | storeBcd | storeRegs
      | loadRegs =>
    simp only [Assigned, hfamily, nn_eq_of_digits hy hn]
    decide
  all_goals simp [Assigned, hfamily, hn]

namespace Instruction

/-- A machine call is read only from a word whose address is not taken for something else. -/
theorem nnn_ne_of_machineCall {w : Word} (hfamily : w.family = 0x0) (hclear : w ≠ 0x00e0)
    (hret : w ≠ 0x00ee) : w.nnn ≠ 0x0e0 ∧ w.nnn ≠ 0x0ee := by
  have hw := Word.ofAddress_fields w
  rw [hfamily] at hw
  constructor
  · intro haddr
    rw [haddr] at hw
    exact hclear hw.symm
  · intro haddr
    rw [haddr] at hw
    exact hret hw.symm

/-- What is read is well-formed. -/
theorem wellFormed_decode (w : Word) : (decode w).WellFormed := by
  have hnnn := w.nnn_lt
  unfold decode
  split
  case h_1 hfamily =>
    split_ifs with hclear hret
    · trivial
    · trivial
    · exact ⟨hnnn, nnn_ne_of_machineCall hfamily hclear hret⟩
  case h_6 hfamily | h_10 hfamily =>
    split_ifs with hn
    · trivial
    · simpa [WellFormed, Word.Assigned, hfamily] using hn
  case h_9 hfamily =>
    unfold decodeArithmetic
    split
    case h_10 =>
      simp only [WellFormed, Word.Assigned, hfamily]
      grind
    all_goals trivial
  case h_15 hfamily =>
    unfold decodeKey
    split
    case h_3 => simp_all [WellFormed, Word.Assigned]
    all_goals trivial
  case h_16 =>
    have hfamily : w.family = 0xf := by grind
    unfold decodeMisc
    split
    case h_10 => simp_all [WellFormed, Word.Assigned]
    all_goals trivial
  case h_2 | h_3 | h_11 | h_12 => exact hnnn
  all_goals trivial

theorem exists_pattern_decode {w : Word} (h : w.Assigned) : ∃ p, (decode w).pattern = some p := by
  have hread := wellFormed_decode w
  have hwritten := encode_decode w
  cases hi : decode w
  case unknown word =>
    rw [hi] at hread hwritten
    subst hwritten
    exact absurd h hread
  all_goals exact ⟨_, rfl⟩

end Instruction

/-- A word is assigned just when it is read as something other than itself. -/
theorem Word.assigned_iff_decode_ne {w : Word} :
    w.Assigned ↔ Instruction.decode w ≠ .unknown w := by
  constructor
  · intro h hdecode
    have hread := Instruction.wellFormed_decode w
    rw [hdecode] at hread
    exact hread h
  · intro h
    by_contra hassigned
    exact h (Instruction.decode_of_not_assigned hassigned)

instance (w : Word) : Decidable w.Assigned := decidable_of_iff' _ Word.assigned_iff_decode_ne

/-- A word is assigned just when it looks like the pattern of some instruction. -/
theorem Word.assigned_iff_fits {w : Word} :
    w.Assigned ↔ ∃ i : Instruction, ∃ p, i.pattern = some p ∧ w.Fits p := by
  constructor
  · intro h
    obtain ⟨p, hp⟩ := Instruction.exists_pattern_decode h
    have hfits := Instruction.fits_encode hp
    rw [Instruction.encode_decode] at hfits
    exact ⟨_, p, hp, hfits⟩
  · rintro ⟨i, p, hp, hfits⟩
    exact assigned_of_fits hp hfits

namespace Instruction

/-! ## Words and instructions -/

theorem bijOn_decode : Set.BijOn decode Set.univ {i | i.WellFormed} :=
  ⟨fun w _ => wellFormed_decode w,
    fun w _ w' _ hsame => by rw [← encode_decode w, hsame, encode_decode],
    fun i hi => ⟨i.encode, trivial, decode_encode hi⟩⟩

/-- **Reading loses nothing and invents nothing.** Every word is read as a well-formed instruction
    that is written as that word again, and every well-formed instruction is read back from the word
    that it is written as: words and well-formed instructions are in bijection. An instruction is
    written after its pattern, with its operands where the letters stand, and the words that are
    left as unassigned are those that fit no pattern. Registers and sprite heights that have been
    read are below sixteen, and addresses below 4096. -/
theorem words_correspond_to_instructions :
    (∀ w : Word, (decode w).encode = w) ∧
    (∀ i : Instruction, i.WellFormed → decode i.encode = i) ∧
    Set.BijOn decode Set.univ {i | i.WellFormed} ∧
    (∀ i : Instruction, ∀ p, i.pattern = some p → i.encode.Fits p) ∧
    (∀ i : Instruction, i.WellFormed →
      ∀ operand ∈ i.operands, i.encode.field operand.1 = operand.2) ∧
    (∀ w : Word, (unknown w).WellFormed ↔
      ∀ i : Instruction, ∀ p, i.pattern = some p → ¬ w.Fits p) ∧
    (∀ w : Word, ∀ operand ∈ (decode w).operands,
      operand.2 < if operand.1 = "addr" then 4096 else if operand.1 = "nn" then 256 else 16) := by
  refine ⟨encode_decode, fun _ => decode_encode, bijOn_decode, fun _ _ => fits_encode,
    fun _ => field_encode, fun w => ?_, operand_decode_lt⟩
  rw [WellFormed, Word.assigned_iff_fits]
  simp only [not_exists, not_and]

/-- A sprite of five rows and a word of family 5 that nothing is assigned to are read back. -/
theorem spriteAndHole_read_back :
    (draw 1 2 5).WellFormed ∧ decode (draw 1 2 5).encode = draw 1 2 5 ∧
    (draw 1 2 5).encode.Fits [.digit 0xd, .x, .y, .n] ∧ (draw 1 2 5).encode.field "n" = 5 ∧
    (unknown 0x5121).WellFormed ∧ decode (unknown 0x5121).encode = unknown 0x5121 := by
  obtain ⟨-, hback, -, hfits, hfield, -, -⟩ := words_correspond_to_instructions
  have hsprite : (draw 1 2 5).WellFormed := trivial
  have hhole : (unknown 0x5121).WellFormed := by
    change ¬ Word.n 0x5121 = 0x0
    decide
  exact ⟨hsprite, hback _ hsprite, hfits _ _ rfl, hfield _ hsprite ("n", 5) (by decide), hhole,
    hback _ hhole⟩

end Instruction

end Chip8
