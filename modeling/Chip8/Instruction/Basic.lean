import Chip8.Instruction.Word

set_option autoImplicit false

/-! # The instruction set

Thirty-five instructions, told apart by the family of the word and, inside some families, by its
last digit or its low byte. A word that is assigned to none of them is an instruction as well: it
does nothing. `decode` reads a word, and `encode` puts the operands back where they came from. -/

namespace Chip8

/-- One decoded operation. Registers are named by a digit, addresses have twelve bits. -/
inductive Instruction where
  /-- The word 00E0: darken the whole screen. -/
  | clearScreen
  /-- The word 00EE: go back to the last return address. -/
  | ret
  /-- The words 0NNN: call a routine in the host's machine code. -/
  | machineCall (addr : UInt16)
  /-- The words 1NNN: go to an address. -/
  | jump (addr : UInt16)
  /-- The words 2NNN: go to an address and remember where to come back to. -/
  | call (addr : UInt16)
  /-- The words 3XNN: skip if VX is the immediate. -/
  | skipEqImm (x : Fin 16) (nn : UInt8)
  /-- The words 4XNN: skip if VX is not the immediate. -/
  | skipNeImm (x : Fin 16) (nn : UInt8)
  /-- The words 5XY0: skip if VX and VY agree. -/
  | skipEqReg (x y : Fin 16)
  /-- The words 6XNN: set VX to the immediate. -/
  | loadImm (x : Fin 16) (nn : UInt8)
  /-- The words 7XNN: add the immediate to VX. -/
  | addImm (x : Fin 16) (nn : UInt8)
  /-- The words 8XY0: copy VY to VX. -/
  | move (x y : Fin 16)
  /-- The words 8XY1: bitwise or of VY into VX. -/
  | or (x y : Fin 16)
  /-- The words 8XY2: bitwise and of VY into VX. -/
  | and (x y : Fin 16)
  /-- The words 8XY3: bitwise exclusive or of VY into VX. -/
  | xor (x y : Fin 16)
  /-- The words 8XY4: add VY to VX, the flag telling of a carry. -/
  | addReg (x y : Fin 16)
  /-- The words 8XY5: subtract VY from VX, the flag telling that nothing was borrowed. -/
  | subReg (x y : Fin 16)
  /-- The words 8XY6: shift right, the flag taking the bit that falls out. -/
  | shiftRight (x y : Fin 16)
  /-- The words 8XY7: set VX to VY less VX, the flag telling that nothing was borrowed. -/
  | subReverse (x y : Fin 16)
  /-- The words 8XYE: shift left, the flag taking the bit that falls out. -/
  | shiftLeft (x y : Fin 16)
  /-- The words 9XY0: skip if VX and VY differ. -/
  | skipNeReg (x y : Fin 16)
  /-- The words ANNN: set the index register. -/
  | loadIndex (addr : UInt16)
  /-- The words BNNN: go to an address V0 further on. -/
  | jumpOffset (addr : UInt16)
  /-- The words CXNN: set VX to a masked random byte. -/
  | random (x : Fin 16) (nn : UInt8)
  /-- The words DXYN: draw a sprite of N rows at (VX, VY). -/
  | draw (x y n : Fin 16)
  /-- The words EX9E: skip if the key VX is held. -/
  | skipKeyPressed (x : Fin 16)
  /-- The words EXA1: skip if the key VX is not held. -/
  | skipKeyReleased (x : Fin 16)
  /-- The words FX07: read the delay timer. -/
  | getDelay (x : Fin 16)
  /-- The words FX0A: wait for a key to go down. -/
  | waitKey (x : Fin 16)
  /-- The words FX15: set the delay timer. -/
  | setDelay (x : Fin 16)
  /-- The words FX18: set the sound timer. -/
  | setSound (x : Fin 16)
  /-- The words FX1E: add VX to the index register. -/
  | addIndex (x : Fin 16)
  /-- The words FX29: point the index register at the glyph of a digit. -/
  | fontGlyph (x : Fin 16)
  /-- The words FX33: store the three decimal digits of VX. -/
  | storeBcd (x : Fin 16)
  /-- The words FX55: store V0 to VX. -/
  | storeRegs (x : Fin 16)
  /-- The words FX65: load V0 to VX. -/
  | loadRegs (x : Fin 16)
  /-- Every word that is assigned to none of the above. -/
  | unknown (word : Word)
  deriving DecidableEq, Inhabited

namespace Instruction

/-! ## Reading a word -/

/-- The members of family 8, told apart by the last digit. -/
def decodeArithmetic (w : Word) : Instruction :=
  match w.n with
  | 0x0 => .move w.x w.y
  | 0x1 => .or w.x w.y
  | 0x2 => .and w.x w.y
  | 0x3 => .xor w.x w.y
  | 0x4 => .addReg w.x w.y
  | 0x5 => .subReg w.x w.y
  | 0x6 => .shiftRight w.x w.y
  | 0x7 => .subReverse w.x w.y
  | 0xe => .shiftLeft w.x w.y
  | _ => .unknown w

/-- The members of family E, told apart by the low byte. -/
def decodeKey (w : Word) : Instruction :=
  match w.nn with
  | 0x9e => .skipKeyPressed w.x
  | 0xa1 => .skipKeyReleased w.x
  | _ => .unknown w

/-- The members of family F, told apart by the low byte. -/
def decodeMisc (w : Word) : Instruction :=
  match w.nn with
  | 0x07 => .getDelay w.x
  | 0x0a => .waitKey w.x
  | 0x15 => .setDelay w.x
  | 0x18 => .setSound w.x
  | 0x1e => .addIndex w.x
  | 0x29 => .fontGlyph w.x
  | 0x33 => .storeBcd w.x
  | 0x55 => .storeRegs w.x
  | 0x65 => .loadRegs w.x
  | _ => .unknown w

/-- Reads a word as an instruction; every word is one. -/
def decode (w : Word) : Instruction :=
  match w.family with
  | 0x0 => if w = 0x00e0 then .clearScreen else if w = 0x00ee then .ret else .machineCall w.nnn
  | 0x1 => .jump w.nnn
  | 0x2 => .call w.nnn
  | 0x3 => .skipEqImm w.x w.nn
  | 0x4 => .skipNeImm w.x w.nn
  | 0x5 => if w.n = 0 then .skipEqReg w.x w.y else .unknown w
  | 0x6 => .loadImm w.x w.nn
  | 0x7 => .addImm w.x w.nn
  | 0x8 => decodeArithmetic w
  | 0x9 => if w.n = 0 then .skipNeReg w.x w.y else .unknown w
  | 0xa => .loadIndex w.nnn
  | 0xb => .jumpOffset w.nnn
  | 0xc => .random w.x w.nn
  | 0xd => .draw w.x w.y w.n
  | 0xe => decodeKey w
  | _ => decodeMisc w

theorem decode_call {w : Word} (h : w.toNat / 4096 = 0x2) : decode w = .call w.nnn := by
  have hfamily : w.family = 0x2 := Word.family_eq h
  rw [decode, hfamily]
  rfl

theorem decode_draw {w : Word} (h : w.toNat / 4096 = 0xd) : decode w = .draw w.x w.y w.n := by
  have hfamily : w.family = 0xd := Word.family_eq h
  rw [decode, hfamily]
  rfl

theorem decode_misc {w : Word} (h : w.toNat / 4096 = 0xf) : decode w = decodeMisc w := by
  have hfamily : w.family = 0xf := Word.family_eq h
  rw [decode, hfamily]
  rfl

/-! ## Writing a word -/

/-- The word that an instruction is written as. -/
def encode : Instruction → Word
  | .clearScreen => 0x00e0
  | .ret => 0x00ee
  | .machineCall addr => .ofAddress 0x0 addr
  | .jump addr => .ofAddress 0x1 addr
  | .call addr => .ofAddress 0x2 addr
  | .skipEqImm x nn => .ofImmediate 0x3 x nn
  | .skipNeImm x nn => .ofImmediate 0x4 x nn
  | .skipEqReg x y => .ofDigits 0x5 x y 0x0
  | .loadImm x nn => .ofImmediate 0x6 x nn
  | .addImm x nn => .ofImmediate 0x7 x nn
  | .move x y => .ofDigits 0x8 x y 0x0
  | .or x y => .ofDigits 0x8 x y 0x1
  | .and x y => .ofDigits 0x8 x y 0x2
  | .xor x y => .ofDigits 0x8 x y 0x3
  | .addReg x y => .ofDigits 0x8 x y 0x4
  | .subReg x y => .ofDigits 0x8 x y 0x5
  | .shiftRight x y => .ofDigits 0x8 x y 0x6
  | .subReverse x y => .ofDigits 0x8 x y 0x7
  | .shiftLeft x y => .ofDigits 0x8 x y 0xe
  | .skipNeReg x y => .ofDigits 0x9 x y 0x0
  | .loadIndex addr => .ofAddress 0xa addr
  | .jumpOffset addr => .ofAddress 0xb addr
  | .random x nn => .ofImmediate 0xc x nn
  | .draw x y n => .ofDigits 0xd x y n
  | .skipKeyPressed x => .ofImmediate 0xe x 0x9e
  | .skipKeyReleased x => .ofImmediate 0xe x 0xa1
  | .getDelay x => .ofImmediate 0xf x 0x07
  | .waitKey x => .ofImmediate 0xf x 0x0a
  | .setDelay x => .ofImmediate 0xf x 0x15
  | .setSound x => .ofImmediate 0xf x 0x18
  | .addIndex x => .ofImmediate 0xf x 0x1e
  | .fontGlyph x => .ofImmediate 0xf x 0x29
  | .storeBcd x => .ofImmediate 0xf x 0x33
  | .storeRegs x => .ofImmediate 0xf x 0x55
  | .loadRegs x => .ofImmediate 0xf x 0x65
  | .unknown word => word

/-- No word is lost in reading: the operands lead back to it. -/
theorem encode_decode (w : Word) : (decode w).encode = w := by
  have hi := Word.ofImmediate_fields w
  have ha := Word.ofAddress_fields w
  have hd := Word.ofDigits_fields w
  unfold decode
  split
  case h_1 => repeat' split
              all_goals simp_all [encode]
  case h_6 => split <;> simp_all [encode]
  case h_9 => unfold decodeArithmetic; split <;> simp_all [encode]
  case h_10 => split <;> simp_all [encode]
  case h_15 => unfold decodeKey; split <;> simp_all [encode]
  case h_16 =>
    have hf : w.family = 0xf := by
      generalize w.family = f at *
      clear hi ha hd
      revert f; decide
    unfold decodeMisc; split <;> simp_all [encode]
  all_goals simp_all [encode]

end Instruction

end Chip8
