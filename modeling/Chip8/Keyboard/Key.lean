import Chip8.Text.Numeral

set_option autoImplicit false

/-! # Keys of a terminal

What a terminal reports when a key goes down: a character, or one of the keys that stand for no
character, together with the control key. Nothing is reported when a key comes up again. -/

namespace Chip8

/-- A key of the terminal's keyboard. -/
inductive Key where
  | char (c : Char)
  | esc
  | enter
  | tab
  | backspace
  | backTab
  | up
  | down
  | left
  | right
  | home
  | «end»
  | insert
  | delete
  | pageUp
  | pageDown
  | null
  | function (number : Nat)
  deriving DecidableEq, Inhabited

/-- What a key that stands for no character is called. -/
def Key.name : Key → String
  | .char c => c.toString
  | .esc => "Esc"
  | .enter => "Enter"
  | .tab => "Tab"
  | .backspace => "Backspace"
  | .backTab => "BackTab"
  | .up => "Up"
  | .down => "Down"
  | .left => "Left"
  | .right => "Right"
  | .home => "Home"
  | .end => "End"
  | .insert => "Insert"
  | .delete => "Delete"
  | .pageUp => "PageUp"
  | .pageDown => "PageDown"
  | .null => "Null"
  | .function number => "F(" ++ Numeral.decimal number ++ ")"

/-- A key going down, perhaps with the control key held. -/
structure KeyPress where
  key : Key
  /-- Was the control key held? -/
  ctrl : Bool := false
  deriving DecidableEq, Inhabited

end Chip8
