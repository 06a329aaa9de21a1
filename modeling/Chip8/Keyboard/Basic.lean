import Chip8.Log
import Chip8.Table

set_option autoImplicit false

/-! # The keyboard

A terminal reports keys going down, but not coming up again. So a key of the keypad counts as held
for a fixed time after the last report of it. The left-hand block of the keyboard is laid out like
the keypad:

    1 2 3 4        1 2 3 C
    q w e r        4 5 6 D
    a s d f   as   7 8 9 E
    z x c v        A 0 B F

Capital letters count as small ones, and modifiers are ignored, except that Ctrl-C and Esc ask to
leave. -/

namespace Chip8

/-- The characters of the keys 0 to F. -/
def keyChars : List Char :=
  ['x', '1', '2', '3', 'q', 'w', 'e', 'a', 's', 'd', 'z', 'c', '4', 'r', 'f', 'v']

/-- The key of the keypad that a character stands for. -/
def keyOfChar (c : Char) : Option (Fin 16) :=
  (List.finRange 16).find? fun key => keyChars[key.val]? == some c.toLower

/-- How long a key counts as held after a report of it, in nanoseconds. -/
def keyHold : Nat := 200000000

/-- What the keyboard remembers. -/
structure Keyboard where
  /-- When each key of the keypad was last reported, unless that is too long ago. -/
  pressedAt : Table (Option Nat) := Vector.replicate 16 none
  /-- Has the user asked to leave? -/
  quit : Bool := false
  deriving DecidableEq, Inhabited

namespace Keyboard

/-- The keyboard after a report at the time `now`, and what was logged. -/
def press (k : Keyboard) (p : KeyPress) (now : Nat) : Keyboard × List Record :=
  match p.key with
  | .esc => ({ k with quit := true }, [])
  | .char c =>
    if c = 'c' ∧ p.ctrl then ({ k with quit := true }, [])
    else
      match keyOfChar c with
      | some key => ({ k with pressedAt := k.pressedAt.put key (some now) }, [])
      | none => (k, [.unmappedChar c])
  | key => (k, [.ignoredKey key])

/-- The keyboard after some reports at the time `now`, and what was logged. -/
def pressAll (k : Keyboard) (now : Nat) : List KeyPress → Keyboard × List Record
  | [] => (k, [])
  | p :: rest =>
    let first := k.press p now
    let others := first.1.pressAll now rest
    (others.1, first.2 ++ others.2)

/-- Is a key that was reported at `time` still held at `now`? -/
def isHeld (now time : Nat) : Bool := now - time < keyHold

/-- The keyboard with the reports forgotten that are too old at the time `now`. -/
def refresh (k : Keyboard) (now : Nat) : Keyboard :=
  { k with pressedAt := k.pressedAt.map (·.filter (isHeld now)) }

/-- The keys held, in ascending order, for a keyboard that has just been refreshed. -/
def heldKeys (k : Keyboard) : List UInt8 :=
  (List.finRange 16).filterMap fun key =>
    (k.pressedAt.entry key).map fun _ => UInt8.ofNat key.val

end Keyboard

end Chip8
