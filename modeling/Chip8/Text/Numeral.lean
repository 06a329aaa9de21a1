set_option autoImplicit false

/-! # Numerals

Registers, addresses and instruction words are shown in base sixteen with a *least* number of
digits: `hex 3 0x2a` is `02a`, but `hex 3 0x10fe` is `10fe`. A single register index is one
upper-case digit, and everything counted (call depth, sprite height) is in base ten. Settings
are read back from base ten with `readDecimal?`. -/

namespace Chip8.Numeral

/-! ## Writing -/

/-- The digits of `n` in base sixteen, lower case, with zeros in front up to `width` digits. -/
def hexDigits (width n : Nat) : List Char :=
  List.leftpad width '0' (Nat.toDigits 16 n)

/-- `n` in base sixteen, lower case, at least `width` digits long. -/
def hex (width n : Nat) : String := String.ofList (hexDigits width n)

theorem toList_hex (width n : Nat) : (hex width n).toList = hexDigits width n :=
  String.toList_ofList

theorem length_hexDigits (width n : Nat) :
    (hexDigits width n).length = max width (Nat.toDigits 16 n).length :=
  List.length_leftpad

/-- The upper-case digit of a register index. -/
def digit (x : Fin 16) : Char := (Nat.digitChar x.val).toUpper

/-- `n` in base ten. -/
def decimal (n : Nat) : String := String.ofList (Nat.toDigits 10 n)

theorem toList_decimal (n : Nat) : (decimal n).toList = Nat.toDigits 10 n :=
  String.toList_ofList

/-! ## Reading -/

/-- Reads a base-ten number below `bound`: ASCII digits, at least one, with at most one plus
    sign in front. -/
def readDecimal? (bound : Nat) (text : String) : Option Nat :=
  let digits := match text.toList with
    | '+' :: rest => rest
    | chars => chars
  if digits.isEmpty || !digits.all Char.isDigit then none
  else
    let n := Nat.ofDigitChars 10 digits 0
    if n < bound then some n else none

end Chip8.Numeral
