import Chip8.Instruction.Text
import Chip8.Keyboard.Key
import Chip8.Text.Quoted

set_option autoImplicit false

/-! # The log

Everything worth telling that is not an answer: the trace of a program, what was skipped in it, and
what became of the devices. A record says what happened; its level and its text follow from that. A
reader chooses a level and sees the records of that level and of the graver ones. -/

namespace Chip8

/-! ## Levels -/

/-- How grave a record is, gravest first. -/
inductive Level where
  | error
  | warn
  | info
  | debug
  | trace
  deriving DecidableEq, Inhabited

namespace Level

/-- The rank of a level, the gravest lowest. -/
def rank : Level → Nat
  | .error => 1
  | .warn => 2
  | .info => 3
  | .debug => 4
  | .trace => 5

/-- What the level is called. -/
def name : Level → String
  | .error => "ERROR"
  | .warn => "WARN"
  | .info => "INFO"
  | .debug => "DEBUG"
  | .trace => "TRACE"

/-- Does a reader who asked for `threshold` see records of this level? -/
def visibleAt (level threshold : Level) : Bool := level.rank ≤ threshold.rank

end Level

/-! ## Records -/

/-- Something that happened. -/
inductive Record where
  /-- The word fetched at `pc` is about to be executed. -/
  | executing (pc word : UInt16)
  /-- A call of a routine in the host's machine code was skipped. -/
  | machineCall (addr : UInt16)
  /-- A word that no instruction is assigned to was skipped. -/
  | unassigned (word : UInt16)
  /-- The user left after so many cycles. -/
  | quit (cycles : Nat)
  /-- The limit on cycles was found reached. -/
  | cycleLimit
  /-- The sound device refused a request. -/
  | soundRefused (reason : String)
  /-- The sound device refused to fall silent at the end. -/
  | soundStuck (reason : String)
  /-- A character was typed that stands for no key of the keypad. -/
  | unmappedChar (c : Char)
  /-- A key was pressed that stands for no character. -/
  | ignoredKey (key : Key)
  /-- A program of so many bytes was loaded from a file. -/
  | loaded (size : Nat) (path : String)
  /-- The program is over after so many cycles. -/
  | finished (cycles : Nat)
  deriving DecidableEq, Inhabited

namespace Record

open Numeral (hex decimal)

/-- How grave the record is. -/
def level : Record → Level
  | .executing _ _ => .trace
  | .machineCall _ | .unassigned _ | .ignoredKey _ => .debug
  | .quit _ | .cycleLimit | .loaded _ _ | .finished _ => .info
  | .soundRefused _ | .unmappedChar _ => .warn
  | .soundStuck _ => .error

/-- The record in words. -/
def text : Record → String
  | .executing pc word =>
    hex 3 pc.toNat ++ ": " ++ hex 4 word.toNat ++ " " ++ (Instruction.decode word).mnemonic
  | .machineCall addr => "ignoring machine code call to 0x" ++ hex 3 addr.toNat
  | .unassigned word => "no such instruction 0x" ++ hex 4 word.toNat ++ ", skipping"
  | .quit cycles => "quit after " ++ decimal cycles ++ " cycles"
  | .cycleLimit => "cycle limit reached"
  | .soundRefused reason => "sound device: " ++ reason
  | .soundStuck reason => "couldn't silence the beeper: " ++ reason
  | .unmappedChar c => "can't map " ++ quoteChar c ++ " to a COSMAC key"
  | .ignoredKey key => "ignoring key " ++ key.name
  | .loaded size path => "loaded " ++ decimal size ++ " bytes from " ++ path
  | .finished cycles => "ran " ++ decimal cycles ++ " cycles"

/-- The record as one line. -/
def line (r : Record) : String := r.level.name ++ " " ++ r.text

/-- Does a reader who asked for `threshold`, or for nothing, see the record? -/
def visibleAt (r : Record) (threshold : Option Level) : Bool :=
  threshold.any r.level.visibleAt

end Record

end Chip8
