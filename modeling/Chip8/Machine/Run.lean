import Chip8.Machine.Step

set_option autoImplicit false

/-! # Runs of cycles

Many cycles in a row with one keypad. A fault ends the run: the machine would only be at fault
again. -/

namespace Chip8

namespace Machine

/-- What came of a run of cycles. -/
structure Run where
  /-- The machine after it. -/
  machine : Machine
  /-- How many cycles succeeded. -/
  cycles : Nat := 0
  /-- The fault that ended the run, if one did. -/
  fault : Option Fault := none
  /-- What was logged, first record first, as far as it was asked for. -/
  log : Array Record := #[]

/-- Goes on with a run for `count` cycles, or up to a fault. -/
def continueRun (keys : Keypad) (threshold : Option Level) : Nat → Run → Run
  | 0, r => r
  | count + 1, r =>
    let s := r.machine.step keys
    let log := r.log.appendList (s.log.filter (·.visibleAt threshold))
    match s.fault with
    | some fault => { machine := s.machine, cycles := r.cycles, fault := some fault, log }
    | none => continueRun keys threshold count { machine := s.machine, cycles := r.cycles + 1, log }

/-- Runs `count` cycles, or up to a fault. -/
def run (m : Machine) (keys : Keypad) (threshold : Option Level) (count : Nat) : Run :=
  continueRun keys threshold count { machine := m }

end Machine

end Chip8
