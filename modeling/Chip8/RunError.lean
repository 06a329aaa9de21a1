import Chip8.Fault
import Chip8.Program

set_option autoImplicit false

/-! # Why a run ends early

A run ends early because the program could not be loaded, because it is at fault, or because a
device of the host broke down. -/

namespace Chip8

/-- Why a run ended early. -/
inductive RunError where
  | load (e : LoadError)
  | fault (f : Fault)
  /-- The keyboard or the display broke down for the given reason. -/
  | device (reason : String)
  deriving DecidableEq, Inhabited

namespace RunError

/-- The reason in words. -/
def message : RunError → String
  | .load e => e.message
  | .fault f => f.message
  | .device reason => "i/o error: " ++ reason

/-- What a device of the host said, where that is at the root of the matter. -/
def cause : RunError → Option String
  | .load (.source reason) => some reason
  | .load (.tooLarge _ _) => none
  | .fault _ => none
  | .device reason => some reason

end RunError

end Chip8
