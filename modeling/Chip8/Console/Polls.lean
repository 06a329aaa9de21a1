set_option autoImplicit false

/-! # Polls of the keyboard

What the polls of a run find, one poll after the other. A row of polls is a function of the
position, so that it costs nothing to have more of them in store than a run comes to. -/

namespace Chip8

/-- What one poll of the keyboard finds. -/
structure Poll where
  keys : List UInt8 := []
  /-- How long the poll takes. -/
  busy : Nat := 0
  quit : Bool := false
  /-- What is wrong with the keyboard, if the poll fails. -/
  failure : Option String := none
  deriving DecidableEq, Inhabited

/-- What the polls of a run find. -/
structure Polls where
  count : Nat
  /-- What the poll at each position finds, the first one at zero. -/
  find : Nat → Poll

end Chip8
