import Chip8.Text.Numeral

set_option autoImplicit false

/-! # What can go wrong while a program runs

Every access of a program is checked. Running off the end of memory, of the call stack or of the
screen is a fault with a cause; nothing wraps around by accident. -/

namespace Chip8

/-- The cause of a fault. -/
inductive FaultKind where
  /-- An access touched `addr`, which lies beyond memory. -/
  | addressOutOfRange (addr : Nat)
  /-- A call was made with the call stack full. -/
  | stackOverflow
  /-- A return was made with the call stack empty. -/
  | stackUnderflow
  /-- The pixel at (`x`, `y`) lies beyond the screen. -/
  | pixelOutOfRange (x y : Nat)
  deriving DecidableEq, Inhabited

/-- The cause in words. -/
def FaultKind.message : FaultKind → String
  | .addressOutOfRange addr => "memory address 0x" ++ Numeral.hex 4 addr ++ " out of range"
  | .stackOverflow => "call stack overflow"
  | .stackUnderflow => "return with empty call stack"
  | .pixelOutOfRange x y =>
    "pixel (" ++ Numeral.decimal x ++ ", " ++ Numeral.decimal y ++ ") outside the framebuffer"

end Chip8
