import Chip8.Instruction.Basic
import Chip8.Text.Numeral

set_option autoImplicit false

/-! # Instructions as text

Two written forms of an instruction. The *mnemonic* is the assembly text used in traces: a short
name, registers as `V` and an upper-case digit, immediates and addresses in base sixteen, the
sprite height in base ten. The *record text* spells out the name of the operation and its operands
in base ten. -/

namespace Chip8

namespace Instruction

open Numeral (hex digit decimal)

/-! ## Mnemonics -/

/-- A register operand, for example VA. -/
def reg (x : Fin 16) : String := "V" ++ (digit x).toString

/-- An eight-bit operand, for example 0x0f. -/
def imm (nn : UInt8) : String := "0x" ++ hex 2 nn.toNat

/-- A twelve-bit operand, for example 0x20e. -/
def address (addr : UInt16) : String := "0x" ++ hex 3 addr.toNat

/-- The assembly text of an instruction. -/
def mnemonic : Instruction → String
  | .clearScreen => "CLS"
  | .ret => "RET"
  | .machineCall addr => "SYS " ++ address addr
  | .jump addr => "JP " ++ address addr
  | .call addr => "CALL " ++ address addr
  | .skipEqImm x nn => "SE " ++ reg x ++ ", " ++ imm nn
  | .skipNeImm x nn => "SNE " ++ reg x ++ ", " ++ imm nn
  | .skipEqReg x y => "SE " ++ reg x ++ ", " ++ reg y
  | .loadImm x nn => "LD " ++ reg x ++ ", " ++ imm nn
  | .addImm x nn => "ADD " ++ reg x ++ ", " ++ imm nn
  | .move x y => "LD " ++ reg x ++ ", " ++ reg y
  | .or x y => "OR " ++ reg x ++ ", " ++ reg y
  | .and x y => "AND " ++ reg x ++ ", " ++ reg y
  | .xor x y => "XOR " ++ reg x ++ ", " ++ reg y
  | .addReg x y => "ADD " ++ reg x ++ ", " ++ reg y
  | .subReg x y => "SUB " ++ reg x ++ ", " ++ reg y
  | .shiftRight x y => "SHR " ++ reg x ++ ", " ++ reg y
  | .subReverse x y => "SUBN " ++ reg x ++ ", " ++ reg y
  | .shiftLeft x y => "SHL " ++ reg x ++ ", " ++ reg y
  | .skipNeReg x y => "SNE " ++ reg x ++ ", " ++ reg y
  | .loadIndex addr => "LD I, " ++ address addr
  | .jumpOffset addr => "JP V0, " ++ address addr
  | .random x nn => "RND " ++ reg x ++ ", " ++ imm nn
  | .draw x y n => "DRW " ++ reg x ++ ", " ++ reg y ++ ", " ++ decimal n.val
  | .skipKeyPressed x => "SKP " ++ reg x
  | .skipKeyReleased x => "SKNP " ++ reg x
  | .getDelay x => "LD " ++ reg x ++ ", DT"
  | .waitKey x => "LD " ++ reg x ++ ", K"
  | .setDelay x => "LD DT, " ++ reg x
  | .setSound x => "LD ST, " ++ reg x
  | .addIndex x => "ADD I, " ++ reg x
  | .fontGlyph x => "LD F, " ++ reg x
  | .storeBcd x => "LD B, " ++ reg x
  | .storeRegs x => "LD [I], " ++ reg x
  | .loadRegs x => "LD " ++ reg x ++ ", [I]"
  | .unknown word => "??? 0x" ++ hex 4 word.toNat

/-! ## Record text -/

/-- The name of the operation. -/
def name : Instruction → String
  | .clearScreen => "ClearScreen"
  | .ret => "Return"
  | .machineCall _ => "MachineCall"
  | .jump _ => "Jump"
  | .call _ => "Call"
  | .skipEqImm _ _ => "SkipEqImm"
  | .skipNeImm _ _ => "SkipNeImm"
  | .skipEqReg _ _ => "SkipEqReg"
  | .loadImm _ _ => "LoadImm"
  | .addImm _ _ => "AddImm"
  | .move _ _ => "Move"
  | .or _ _ => "Or"
  | .and _ _ => "And"
  | .xor _ _ => "Xor"
  | .addReg _ _ => "AddReg"
  | .subReg _ _ => "SubReg"
  | .shiftRight _ _ => "ShiftRight"
  | .subReverse _ _ => "SubReverse"
  | .shiftLeft _ _ => "ShiftLeft"
  | .skipNeReg _ _ => "SkipNeReg"
  | .loadIndex _ => "LoadIndex"
  | .jumpOffset _ => "JumpOffset"
  | .random _ _ => "Random"
  | .draw _ _ _ => "Draw"
  | .skipKeyPressed _ => "SkipKeyPressed"
  | .skipKeyReleased _ => "SkipKeyReleased"
  | .getDelay _ => "GetDelay"
  | .waitKey _ => "WaitKey"
  | .setDelay _ => "SetDelay"
  | .setSound _ => "SetSound"
  | .addIndex _ => "AddIndex"
  | .fontGlyph _ => "FontGlyph"
  | .storeBcd _ => "StoreBcd"
  | .storeRegs _ => "StoreRegs"
  | .loadRegs _ => "LoadRegs"
  | .unknown _ => "Unknown"

/-- The operands by name, in the order in which they are written. -/
def operands : Instruction → List (String × Nat)
  | .clearScreen | .ret | .unknown _ => []
  | .machineCall addr | .jump addr | .call addr | .loadIndex addr | .jumpOffset addr =>
    [("addr", addr.toNat)]
  | .skipEqImm x nn | .skipNeImm x nn | .loadImm x nn | .addImm x nn | .random x nn =>
    [("x", x.val), ("nn", nn.toNat)]
  | .skipEqReg x y | .move x y | .or x y | .and x y | .xor x y | .addReg x y | .subReg x y
  | .shiftRight x y | .subReverse x y | .shiftLeft x y | .skipNeReg x y =>
    [("x", x.val), ("y", y.val)]
  | .draw x y n => [("x", x.val), ("y", y.val), ("n", n.val)]
  | .skipKeyPressed x | .skipKeyReleased x | .getDelay x | .waitKey x | .setDelay x | .setSound x
  | .addIndex x | .fontGlyph x | .storeBcd x | .storeRegs x | .loadRegs x =>
    [("x", x.val)]

/-- The name of the operation with its operands in braces; an unassigned word stands in
    parentheses. -/
def recordText (i : Instruction) : String :=
  match i, i.operands with
  | .unknown word, _ => i.name ++ "(" ++ decimal word.toNat ++ ")"
  | _, [] => i.name
  | _, operands =>
    let fields := operands.map fun (field, value) => field ++ ": " ++ decimal value
    i.name ++ " \x7b " ++ ", ".intercalate fields ++ " \x7d"

end Instruction

end Chip8
