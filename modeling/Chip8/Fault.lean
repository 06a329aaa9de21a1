import Chip8.Registers

set_option autoImplicit false

/-! # Fault reports

A fault stops the program. The report carries the cause, the instruction word (none when the word
itself could not be fetched) and the registers as they were before the instruction, so that its
program counter still points at the culprit. -/

namespace Chip8

/-- A program's fatal mistake. -/
structure Fault where
  kind : FaultKind
  /-- The instruction word, unless fetching it was what went wrong. -/
  opcode : Option UInt16
  /-- The registers before the instruction. -/
  registers : Registers
  deriving DecidableEq, Inhabited

namespace Fault

/-- Where the fault came from: the instruction word, or the fetch. -/
def origin : Option UInt16 → String
  | some word => "(opcode 0x" ++ Numeral.hex 4 word.toNat ++ ")"
  | none => "(instruction fetch)"

def message (f : Fault) : String :=
  f.kind.message ++ " at pc 0x" ++ Numeral.hex 3 f.registers.pc.toNat ++ " " ++ origin f.opcode

end Fault

end Chip8
