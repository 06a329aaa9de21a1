import Chip8.Buzzer
import Chip8.Machine.Step

set_option autoImplicit false

/-! # The console

The machine with its keypad and its buzzer. Three things happen to a console, in any order: the
keyboard is polled, an instruction cycle runs, and a frame ends. A key press seen by a poll is kept
for the next cycle, and the first cycle that succeeds uses it up. At the end of a frame the timers
count down and the buzzer follows the sound timer. -/

namespace Chip8

/-- A machine with its keypad and its buzzer. -/
structure Console where
  machine : Machine
  /-- The keypad as the next cycle sees it. -/
  keypad : Keypad := Keypad.idle
  buzzer : Buzzer := {}
  /-- How many cycles have succeeded. -/
  cycles : Nat := 0
  deriving DecidableEq, Inhabited

namespace Console

/-- The console after a poll that found `keys` held. If no key has gone down since the poll before,
    a press that no cycle has used up yet is kept. -/
def poll (c : Console) (keys : List UInt8) : Console :=
  let seen := Keypad.ofKeys keys c.keypad
  { c with keypad := { seen with newlyPressed := seen.newlyPressed <|> c.keypad.newlyPressed } }

/-- What came of a cycle. -/
structure Cycle where
  console : Console
  fault : Option Fault := none
  log : List Record := []

def cycle (c : Console) : Cycle :=
  let s := c.machine.step c.keypad
  match s.fault with
  | some fault => { console := { c with machine := s.machine }, fault := some fault, log := s.log }
  | none =>
    { console :=
        { c with machine := s.machine, keypad := { c.keypad with newlyPressed := none },
                 cycles := c.cycles + 1 },
      log := s.log }

/-- What came of the end of a frame. -/
structure FrameEnd where
  console : Console
  /-- The tone that the sound device was asked for, if any. -/
  asked : Option Tone := none
  log : List Record := []

/-- The end of a frame: the timers count down, then the buzzer follows the sound timer. A sound
    device that refuses is only worth a record in the log. -/
def endFrame (c : Console) (device : SoundDevice) : FrameEnd :=
  let machine := c.machine.tick
  let answer := c.buzzer.follow device machine.registers.sound
  { console := { c with machine, buzzer := answer.buzzer },
    asked := answer.asked,
    log := answer.log }

end Console

end Chip8
