import Chip8.Memory
import Chip8.Registers

set_option autoImplicit false

/-! # Loading a program

A program is a stream of bytes without a header, delivered by a *source* in answers of any size. An
answer may be an interruption, which means nothing, or a failure, which ends the loading; an answer
without bytes is the end of the program. The loader takes one byte more than fits: that is enough to
know that the program is too large, and it ends the loading of a stream that never ends. What it has
not taken by then is left in the source. Memory is written only once the whole program is in
hand. -/

namespace Chip8

/-! ## Sources -/

/-- One answer of a source that is asked for bytes. -/
inductive Read where
  /-- Some bytes; none at all if the source has come to its end. -/
  | bytes (chunk : List UInt8)
  /-- Nothing yet; ask again. -/
  | interrupted
  /-- The source broke down for the given reason. -/
  | failed (reason : String)

/-- What ends a stream of bytes. -/
inductive Stop where
  | ended
  | failed (reason : String)
  deriving DecidableEq, Inhabited

namespace Read

/-- The bytes that an answer delivers. -/
def chunk : Read → List UInt8
  | .bytes chunk => chunk
  | .interrupted | .failed _ => []

/-- How the stream ends with this answer, if it does. -/
def stop? : Read → Option Stop
  | .bytes [] => some .ended
  | .bytes (_ :: _) | .interrupted => none
  | .failed reason => some (.failed reason)

end Read

/-- Answers that never run out. -/
structure Endless where
  answer : Nat → Read

/-- The answers after the first one. -/
def Endless.next (e : Endless) : Endless := { answer := fun i => e.answer (i + 1) }

/-- What a source answers in turn. A source without any more answers has come to its end. -/
structure Source where
  /-- The first answers. -/
  reads : List Read
  /-- The answers that follow these, if they never run out. -/
  forever : Option Endless := none

/-- A source that delivers the given bytes at once. -/
def Source.ofBytes (bytes : List UInt8) : Source := { reads := [.bytes bytes] }

/-! ## Taking bytes from a source -/

/-- How far one gets with some answers. -/
inductive Taking where
  /-- All the bytes there is room for, or all there are, or the reason of a failure; and the answers
      that are left. -/
  | settled (result : Except String (List UInt8)) (left : List Read)
  /-- Some bytes, and then there are no more answers although there is room. -/
  | wanting (taken : List UInt8) (room : Nat)

/-- The same with some bytes taken before. -/
def Taking.behind (chunk : List UInt8) : Taking → Taking
  | .settled result left => .settled (result.map (chunk ++ ·)) left
  | .wanting taken room => .wanting (chunk ++ taken) room

/-- What taking bytes comes to where the stream stops. -/
def Stop.result : Stop → Except String (List UInt8)
  | .ended => .ok []
  | .failed reason => .error reason

/-- Takes bytes from answers, as many as there is room for. An answer is not asked for without room,
    and of one with more bytes than there is room for the rest is left. -/
def takeReads : Nat → List Read → Taking
  | 0, reads => .settled (.ok []) reads
  | room + 1, [] => .wanting [] (room + 1)
  | room + 1, r :: rest =>
    match r.stop? with
    | some stop => .settled stop.result rest
    | none =>
      if r.chunk.length ≤ room + 1 then
        (takeReads (room + 1 - r.chunk.length) rest).behind r.chunk
      else
        .settled (.ok (r.chunk.take (room + 1))) (.bytes (r.chunk.drop (room + 1)) :: rest)

/-- What comes of taking bytes from a source. -/
structure Taken where
  /-- The bytes, or why the source broke down. -/
  result : Except String (List UInt8)
  /-- What is left of the source. -/
  left : Source

/-- The same with some bytes taken before. -/
def Taken.behind (chunk : List UInt8) (t : Taken) : Taken :=
  { t with result := t.result.map (chunk ++ ·) }

/-- Takes bytes from answers that never run out, one answer after the other. It may be that nothing
    ever comes of it. -/
def Endless.take (e : Endless) (room : Nat) : Option Taken :=
  match takeReads room [e.answer 0] with
  | .settled result left => some { result, left := { reads := left, forever := some e.next } }
  | .wanting taken room => do
    let more ← e.next |>.take room
    return more.behind taken
partial_fixpoint

/-- Takes bytes from a source, `room` of them at most, and leaves the rest. There is no result if
    the source goes on for ever and neither fills the room nor stops. -/
def Source.take (s : Source) (room : Nat) : Option Taken :=
  match takeReads room s.reads, s.forever with
  | .settled result left, _ => some { result, left := { s with reads := left } }
  | .wanting taken _, none => some { result := .ok taken, left := { reads := [] } }
  | .wanting taken room, some e => (e.take room).map (·.behind taken)

/-! ## Loading -/

/-- Why a program could not be loaded. -/
inductive LoadError where
  /-- The source broke down. -/
  | source (reason : String)
  /-- The program is longer than `max`; `size` bytes were seen. -/
  | tooLarge (size max : Nat)
  deriving DecidableEq, Inhabited

/-- The reason in words. -/
def LoadError.message : LoadError → String
  | .source reason => "couldn't read program: " ++ reason
  | .tooLarge _ max =>
    "program is more than " ++ Numeral.decimal max ++ " bytes, too big to fit above 0x200"

/-- The most bytes that fit between the start of the program and the top of memory. -/
def maxProgramBytes : Nat := Memory.size - programStart.toNat

namespace Memory

/-- The length of a program that has been taken from its source, and the memory with the program in
    place. -/
def place (m : Memory) : Except String (List UInt8) → Except LoadError (Nat × Memory)
  | .error reason => .error (.source reason)
  | .ok bytes =>
    if bytes.length > maxProgramBytes then
      .error (.tooLarge bytes.length maxProgramBytes)
    else
      .ok (bytes.length, m.store programStart.toNat bytes)

/-- The length of the program that `s` delivers and the memory with the program in place, and what
    is left of `s`. -/
def load (m : Memory) (s : Source) : Option (Except LoadError (Nat × Memory) × Source) :=
  (s.take (maxProgramBytes + 1)).map fun taken => (m.place taken.result, taken.left)

end Memory

end Chip8
