import Chip8.Keypad
import Chip8.Log
import Chip8.Program
import Chip8.Random.KeyStream
import Chip8.Registers
import Chip8.Screen.Basic

set_option autoImplicit false

/-! # The machine

Memory, registers, screen and the random stream, and whether the machine is running or waiting for
a key. Two points on which historical interpreters differ are settled by the machine's dialect. -/

namespace Chip8

/-- Where interpreters differ. -/
structure Dialect where
  /-- Do the shifts 8XY6 and 8XYE shift VY into VX, rather than VX itself? -/
  shiftUsesVy : Bool := false
  /-- Do FX55 and FX65 leave the index register past the last byte they touched? -/
  loadStoreBumpsIndex : Bool := false
  deriving DecidableEq, Inhabited

/-- What the machine does with its next cycle. -/
inductive Activity where
  /-- It executes an instruction. -/
  | running
  /-- It looks for a key that has gone down, to put it into the register `x`. -/
  | awaitingKey (x : Fin 16)
  deriving DecidableEq, Inhabited

/-- The whole state of the machine. -/
structure Machine where
  memory : Memory
  registers : Registers
  screen : Screen
  activity : Activity
  dialect : Dialect
  random : KeyStream
  deriving DecidableEq, Inhabited

namespace Machine

/-- A machine after a reset, with its random stream pinned by `seed`. -/
def fresh (dialect : Dialect) (seed : Seed) : Machine where
  memory := Memory.fresh
  registers := Registers.reset
  screen := Screen.dark
  activity := .running
  dialect := dialect
  random := KeyStream.ofSeed seed

/-- Loads a program into memory. What comes of it is the program's length, the machine and what is
    left of the source; nothing else of the machine changes, and nothing at all if the loading
    fails. There is no result if the source keeps the loader waiting for ever. -/
def load (m : Machine) (s : Source) : Option (Except LoadError Nat × Machine × Source) :=
  (m.memory.load s).map fun
    | (.ok (size, memory), left) => (.ok size, { m with memory }, left)
    | (.error e, left) => (.error e, m, left)

/-- What comes of loading a program, whatever is left of its source. -/
def loadOutcome (m : Machine) (s : Source) : Option (Except LoadError Nat × Machine) :=
  (m.load s).map fun (result, machine, _) => (result, machine)

/-- The machine one timer tick later. -/
def tick (m : Machine) : Machine := { m with registers := m.registers.tick }

/-- The machine so many timer ticks later. -/
def ticks (m : Machine) (count : Nat) : Machine :=
  { m with registers := m.registers.ticks count }

theorem ticks_zero (m : Machine) : m.ticks 0 = m := by
  simp [ticks, Registers.ticks_zero]

theorem ticks_succ (m : Machine) (count : Nat) : m.ticks (count + 1) = (m.ticks count).tick := by
  rw [ticks, Registers.ticks_succ, tick, ticks]

theorem ticks_ticks (m : Machine) (count more : Nat) :
    (m.ticks count).ticks more = m.ticks (count + more) := by
  induction more with
  | zero => exact ticks_zero _
  | succ more ih => rw [ticks_succ, ih, ← ticks_succ, Nat.add_assoc]

/-! ## Updates that instructions are made of -/

/-- The machine with the program counter at `addr`. -/
def goto (m : Machine) (addr : UInt16) : Machine :=
  { m with registers := { m.registers with pc := addr } }

/-- The value of the register `x`. -/
def v (m : Machine) (x : Fin 16) : UInt8 := m.registers.v.entry x

/-- The machine with `value` in the register `x`. -/
def setV (m : Machine) (x : Fin 16) (value : UInt8) : Machine :=
  { m with registers := m.registers.setV x value }

theorem v_setV (m : Machine) (x y : Fin 16) (value : UInt8) :
    (m.setV x value).v y = if x = y then value else m.v y :=
  Registers.v_setV _ _ _ _

/-- The machine with `value` in the register `x` and then the flag up or down. With `x` the flag
    register itself, the flag stays and the value is lost. -/
def setResult (m : Machine) (x : Fin 16) (value : UInt8) (flag : Bool) : Machine :=
  { m with registers := (m.registers.setV x value).setFlag flag }

/-- The flag is written last. -/
theorem v_setResult (m : Machine) (x y : Fin 16) (value : UInt8) (up : Bool) :
    (m.setResult x value up).v y =
      if Registers.flag = y then (if up then 1 else 0) else if x = y then value else m.v y := by
  refine (Registers.v_setV _ _ _ _).trans ?_
  rw [Registers.v_setV]
  rfl

/-- The machine with the index register at `addr`. -/
def setIndex (m : Machine) (addr : UInt16) : Machine :=
  { m with registers := { m.registers with i := addr } }

/-- The machine after `count` bytes at the index register have been touched. -/
def bumpIndex (m : Machine) (count : Nat) : Machine :=
  if m.dialect.loadStoreBumpsIndex then m.setIndex (m.registers.i + UInt16.ofNat count) else m

/-- Moving the index register on is setting it, whatever the dialect. -/
theorem bumpIndex_eq_setIndex (m : Machine) (count : Nat) :
    m.bumpIndex count =
      m.setIndex (if m.dialect.loadStoreBumpsIndex then m.registers.i + UInt16.ofNat count
        else m.registers.i) := by
  unfold bumpIndex
  split <;> rfl

/-- What a shift of VX by way of VY shifts. -/
def shiftSource (m : Machine) (x y : Fin 16) : UInt8 :=
  if m.dialect.shiftUsesVy then m.v y else m.v x

end Machine

end Chip8
