import Chip8.Random.ChaCha

set_option autoImplicit false

/-! # The random stream

Random bytes come from a key stream of 32-bit words: ChaCha with twelve rounds, the blocks counted
from zero. A stream is its key and how many words have been taken; each byte taken uses up one word.
The key comes from a seed: either a 64-bit number, out of which a small generator spreads it, so
that one number pins the whole stream, or all of its bits, as the system gives them. -/

namespace Chip8

/-! ## Spreading a seed -/

/-- The state of the seed spreader one step on. -/
def spreadStep (state : UInt64) : UInt64 := state * 6364136223846793005 + 11634580027462260723

/-- The word that the seed spreader gives out in a state. -/
def spreadWord (state : UInt64) : UInt32 :=
  let word := (((state >>> 18) ^^^ state) >>> 27).toUInt32
  let turn := (state >>> 59).toUInt32
  (word >>> turn) ||| (word <<< ((32 - turn) % 32))

/-- What pins a stream. -/
inductive Seed where
  | number (number : UInt64)
  /-- The whole key, as it comes from the system. -/
  | key (key : Vector UInt32 8)
  deriving DecidableEq, Inhabited

instance : Coe UInt64 Seed := ⟨.number⟩

instance (n : Nat) : OfNat Seed n := ⟨.number (OfNat.ofNat n)⟩

/-- The key that a seed stands for; a number is spread into one, one word a step. -/
def keyOfSeed : Seed → Vector UInt32 8
  | .number number =>
    Vector.ofFn fun k => spreadWord (Nat.repeat spreadStep (k.val + 1) number)
  | .key key => key

/-! ## The stream -/

/-- A random stream somewhere along its way. -/
structure KeyStream where
  /-- The key of the stream. -/
  key : Vector UInt32 8
  /-- How many words have been taken. -/
  position : Nat := 0
  deriving DecidableEq, Inhabited

namespace KeyStream

/-- The start of the stream that a seed pins. -/
def ofSeed (seed : Seed) : KeyStream := { key := keyOfSeed seed }

/-- Word `k` of the stream with the given key. -/
def wordAt (key : Vector UInt32 8) (k : Nat) : UInt32 :=
  (ChaCha.block 6 key (UInt64.ofNat (k / 16)))[k % 16]

/-- The low byte of the next word, and the stream after it. -/
def next (s : KeyStream) : UInt8 × KeyStream :=
  ((wordAt s.key s.position).toUInt8, { s with position := s.position + 1 })

end KeyStream

end Chip8
