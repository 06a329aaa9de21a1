set_option autoImplicit false

/-! # Scripted keys

A stand-in for a keyboard that plays back what it was given: one list of held keys for each look at
it, and the last list for ever once the script is over. It never asks to leave. -/

namespace Chip8

/-- A keyboard that plays back a script. -/
structure KeyScript where
  /-- The lists of held keys that are still to come. -/
  ahead : List (List UInt8) := []
  current : List UInt8 := []
  deriving DecidableEq, Inhabited

namespace KeyScript

/-- The keyboard that always holds the same keys. -/
def fixed (keys : List UInt8) : KeyScript := { current := keys }

/-- The keyboard that plays back a script, holding nothing before it. -/
def scripted (script : List (List UInt8)) : KeyScript := { ahead := script }

/-- The keys held at the next look, and the keyboard afterwards. -/
def peek (k : KeyScript) : List UInt8 × KeyScript :=
  match k.ahead with
  | keys :: rest => (keys, { ahead := rest, current := keys })
  | [] => (k.current, k)

/-- The keys held at each of the next `count` looks. -/
def peeks : Nat → KeyScript → List (List UInt8)
  | 0, _ => []
  | count + 1, k => k.peek.1 :: peeks count k.peek.2

/-- Has the user asked to leave? Nobody is there to ask. -/
def quit (_ : KeyScript) : Bool := false

end KeyScript

end Chip8
