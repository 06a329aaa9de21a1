import Chip8.Fault
import Chip8.Machine.Basic

set_option autoImplicit false

/-! # One cycle of the machine

A running machine fetches the word at the program counter, decodes it and executes it. An
instruction changes the machine as it goes along and says where the program counter goes next; the
counter moves only once the instruction has succeeded. If the instruction is at fault, the cycle
puts the register file back, and nothing but the register file: whatever else the instruction has
changed by then would stay. A waiting machine fetches nothing: it only looks for a key that has gone
down. -/

namespace Chip8

namespace Machine

open Instruction (decode)

/-! ## What an instruction comes to -/

/-- Where the program counter goes after an instruction. -/
inductive Flow where
  /-- To the next instruction. -/
  | next
  /-- To the one after the next. -/
  | skip
  /-- To an address. -/
  | jump (addr : UInt16)
  deriving DecidableEq, Inhabited

namespace Flow

/-- Past the next instruction if `skip` holds, and else to it. -/
def skipIf (skip : Bool) : Flow := if skip then .skip else .next

/-- Where the program counter goes from `pc`. -/
def target (pc : UInt16) : Flow → UInt16
  | .next => pc + 2
  | .skip => pc + 4
  | .jump addr => addr

end Flow

/-- What came of an instruction: where the program counter goes, or what is wrong, and in either
    case the machine as it is left. -/
abbrev Executed := Except FaultKind Flow × Machine

/-! ## Sprites -/

/-- Draws a sprite of `n` rows, taken from memory at the index register, at (VX, VY), row by row on
    the screen. The flag tells whether any lit pixel went dark. -/
def draw (m : Machine) (x y n : Fin 16) : Executed :=
  match m.memory.read m.registers.i n.val with
  | .error kind => (.error kind, m)
  | .ok rows =>
    match m.screen.plotRows (m.v x).toNat (m.v y).toNat rows with
    | (.error kind, screen) => (.error kind, { m with screen })
    | (.ok hit, screen) => (.ok .next, { m with screen, registers := m.registers.setFlag hit })

/-! ## Instructions -/

/-- The three decimal digits of a byte. -/
def bcd (value : UInt8) : List UInt8 := [value / 100, value / 10 % 10, value % 10]

/-- Stores `data` in memory at the index register and goes on with `next`. -/
def storeAtIndex (m : Machine) (data : List UInt8) (next : Machine → Machine) : Executed :=
  match m.memory.write m.registers.i data with
  | .error kind => (.error kind, m)
  | .ok memory => (.ok .next, next { m with memory })

/-- Carries out an instruction, all but the move of the program counter. -/
def execute (m : Machine) (keys : Keypad) : Instruction → Executed
  | .clearScreen => (.ok .next, { m with screen := Screen.dark })
  | .ret =>
    match m.registers.pop with
    | .error kind => (.error kind, m)
    | .ok (addr, registers) => (.ok (.jump addr), { m with registers })
  | .machineCall _ => (.ok .next, m)
  | .jump addr => (.ok (.jump addr), m)
  | .call addr =>
    match m.registers.push (m.registers.pc + 2) with
    | .error kind => (.error kind, m)
    | .ok registers => (.ok (.jump addr), { m with registers })
  | .skipEqImm x nn => (.ok (.skipIf (m.v x == nn)), m)
  | .skipNeImm x nn => (.ok (.skipIf (m.v x != nn)), m)
  | .skipEqReg x y => (.ok (.skipIf (m.v x == m.v y)), m)
  | .skipNeReg x y => (.ok (.skipIf (m.v x != m.v y)), m)
  | .loadImm x nn => (.ok .next, m.setV x nn)
  | .addImm x nn => (.ok .next, m.setV x (m.v x + nn))
  | .move x y => (.ok .next, m.setV x (m.v y))
  | .or x y => (.ok .next, m.setV x (m.v x ||| m.v y))
  | .and x y => (.ok .next, m.setV x (m.v x &&& m.v y))
  | .xor x y => (.ok .next, m.setV x (m.v x ^^^ m.v y))
  | .addReg x y =>
    (.ok .next, m.setResult x (m.v x + m.v y) ((m.v x).toNat + (m.v y).toNat > 255))
  | .subReg x y => (.ok .next, m.setResult x (m.v x - m.v y) (m.v x ≥ m.v y))
  | .subReverse x y => (.ok .next, m.setResult x (m.v y - m.v x) (m.v y ≥ m.v x))
  | .shiftRight x y =>
    let source := m.shiftSource x y
    (.ok .next, m.setResult x (source >>> 1) (source % 2 == 1))
  | .shiftLeft x y =>
    let source := m.shiftSource x y
    (.ok .next, m.setResult x (source <<< 1) (source ≥ 128))
  | .loadIndex addr => (.ok .next, m.setIndex addr)
  | .jumpOffset addr => (.ok (.jump (addr + (m.v 0).toUInt16)), m)
  | .random x nn =>
    let drawn := m.random.next
    (.ok .next, { m with random := drawn.2 }.setV x (drawn.1 &&& nn))
  | .draw x y n => m.draw x y n
  | .skipKeyPressed x => (.ok (.skipIf (keys.isPressed (m.v x))), m)
  | .skipKeyReleased x => (.ok (.skipIf !keys.isPressed (m.v x)), m)
  | .getDelay x => (.ok .next, m.setV x m.registers.delay)
  | .waitKey x => (.ok .next, { m with activity := .awaitingKey x })
  | .setDelay x => (.ok .next, { m with registers := { m.registers with delay := m.v x } })
  | .setSound x => (.ok .next, { m with registers := { m.registers with sound := m.v x } })
  | .addIndex x => (.ok .next, m.setIndex (m.registers.i + (m.v x).toUInt16))
  | .fontGlyph x =>
    (.ok .next, m.setIndex (Memory.fontStart + (m.v x % 16).toUInt16 * Memory.glyphBytes))
  | .storeBcd x => m.storeAtIndex (bcd (m.v x)) id
  | .storeRegs x =>
    m.storeAtIndex (m.registers.v.toList.take (x.val + 1)) (·.bumpIndex (x.val + 1))
  | .loadRegs x =>
    match m.memory.read m.registers.i (x.val + 1) with
    | .error kind => (.error kind, m)
    | .ok values =>
      (.ok .next, { m with registers := m.registers.setFirst values }.bumpIndex (x.val + 1))
  | .unknown _ => (.ok .next, m)

/-- What the log has to say about an instruction besides the trace. -/
def remarks : Instruction → List Record
  | .machineCall addr => [.machineCall addr]
  | .unknown word => [.unassigned word]
  | _ => []

/-! ## Cycles -/

/-- What came of a cycle. -/
structure Step where
  /-- The machine after it. -/
  machine : Machine
  /-- The fault, if the cycle was at fault. -/
  fault : Option Fault := none
  /-- What was logged, first record first. -/
  log : List Record := []

/-- One cycle, with the keypad as it is. -/
def step (m : Machine) (keys : Keypad) : Step :=
  match m.activity with
  | .awaitingKey x =>
    match keys.newlyPressed with
    | some key =>
      { machine := { m with registers := m.registers.setV x key, activity := .running } }
    | none => { machine := m }
  | .running =>
    match m.memory.word m.registers.pc with
    | .error kind =>
      { machine := m, fault := some { kind, opcode := none, registers := m.registers } }
    | .ok word =>
      let log := Record.executing m.registers.pc word :: remarks (decode word)
      match m.execute keys (decode word) with
      | (.ok flow, machine) => { machine := machine.goto (flow.target m.registers.pc), log }
      | (.error kind, machine) =>
        { machine := { machine with registers := m.registers },
          log,
          fault := some { kind, opcode := some word, registers := m.registers } }

/-- The cycles of a machine whose keypad does not change: `count` of them, or fewer if one is at
    fault, which is then the last. -/
def steps (m : Machine) (keys : Keypad) : Nat → List Step
  | 0 => []
  | count + 1 =>
    let s := m.step keys
    s :: if s.fault.isSome then [] else s.machine.steps keys count

end Machine

end Chip8
