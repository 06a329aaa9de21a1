import Chip8.Table

set_option autoImplicit false

/-! # Key stream blocks

The ChaCha block function: a 256-bit key and a block counter give sixteen 32-bit words. The number
of rounds is a parameter, counted in double rounds (one over the columns of the 4 × 4 state, one
over its diagonals). -/

namespace Chip8.ChaCha

/-- The sixteen words of the state, row by row. -/
abbrev State := Table UInt32

/-- The word turned left by `k` bits, `k` between 1 and 31. -/
def rotateLeft (w : UInt32) (k : UInt32) : UInt32 := (w <<< k) ||| (w >>> (32 - k))

/-- Mixes one word into another: adds entry `b` to entry `a`, then turns what entry `a` leaves in
    entry `d`. -/
def mix (s : State) (a b d : Fin 16) (k : UInt32) : State :=
  let sum := s.entry a + s.entry b
  let turned := rotateLeft (s.entry d ^^^ sum) k
  (s.put a sum).put d turned

/-- The quarter round on four words of the state. -/
def quarterRound (s : State) (a b c d : Fin 16) : State :=
  let s := mix s a b d 16
  let s := mix s c d b 12
  let s := mix s a b d 8
  mix s c d b 7

/-- The quarter rounds over the four columns, then over the four diagonals. -/
def doubleRound (s : State) : State :=
  let s := quarterRound s 0 4 8 12
  let s := quarterRound s 1 5 9 13
  let s := quarterRound s 2 6 10 14
  let s := quarterRound s 3 7 11 15
  let s := quarterRound s 0 5 10 15
  let s := quarterRound s 1 6 11 12
  let s := quarterRound s 2 7 8 13
  quarterRound s 3 4 9 14

/-- The state that a block starts from: four constants, the key, the counter in two words with the
    low one first, and the stream number zero. -/
def initial (key : Vector UInt32 8) (counter : UInt64) : State :=
  #v[0x61707865, 0x3320646e, 0x79622d32, 0x6b206574,
     key[0], key[1], key[2], key[3], key[4], key[5], key[6], key[7],
     counter.toUInt32, (counter >>> 32).toUInt32, 0, 0]

/-- The block with the given number: the mixed state added to the state it started from. -/
def block (doubleRounds : Nat) (key : Vector UInt32 8) (counter : UInt64) : State :=
  let start := initial key counter
  Vector.zipWith (· + ·) (Nat.repeat doubleRound doubleRounds start) start

end Chip8.ChaCha
