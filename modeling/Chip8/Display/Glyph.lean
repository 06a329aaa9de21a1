import Chip8.Screen.Basic

set_option autoImplicit false

/-! # The picture in glyphs

A frame for anything that takes bytes: a code that clears the terminal, a code that moves to its top
left corner, and a line for each row, with a full block for a lit pixel and a space for a dark one.
The terminal is in raw mode, so a line ends with a carriage return and a line feed.

The bytes go to a *sink*, which may have room for a limited number of bytes and may fail to flush. A
frame that does not fit is written as far as there is room. -/

namespace Chip8

/-! ## Frames -/

/-- The code that clears a terminal. -/
def clearCode : String := "\x1b[2J"

/-- The code that moves to the top left corner of a terminal. -/
def homeCode : String := "\x1b[1;1H"

/-- The glyph of a pixel: a full block if it is lit, else a space. -/
def glyph (lit : Bool) : Char := if lit then '█' else ' '

/-- A row of pixels as a line. -/
def glyphLine (row : List Bool) : String := String.ofList (row.map glyph) ++ "\r\n"

/-- The pieces of a frame, in the order in which they are written. -/
def Screen.pieces (s : Screen) : List String :=
  clearCode :: homeCode :: s.rows.map glyphLine

/-- The picture as text for a terminal. -/
def Screen.frame (s : Screen) : String := String.join s.pieces

/-! ## Sinks -/

/-- A taker of bytes. -/
structure Sink where
  /-- What has been taken, first byte first. -/
  taken : Array UInt8 := #[]
  /-- How many bytes fit, if that is limited. -/
  limit : Option Nat := none
  /-- Does every flush fail? -/
  flushFails : Bool := false
  deriving DecidableEq, Inhabited

namespace Sink

/-- Writes some bytes: as many as fit are taken, and it is an error if they do not all fit. -/
def write (s : Sink) (bytes : List UInt8) : Except String Unit × Sink :=
  let fitting : List UInt8 := match s.limit with
    | none => bytes
    | some limit => bytes.take (limit - s.taken.size)
  (if fitting.length < bytes.length then .error "device full" else .ok (),
    { s with taken := s.taken.appendList fitting })

/-- Writes one piece of text after the other, up to the first error. -/
def writePieces : List String → Sink → Except String Unit × Sink
  | [], s => (.ok (), s)
  | piece :: rest, s =>
    match s.write piece.toUTF8.toList with
    | (.ok (), s) => writePieces rest s
    | (.error reason, s) => (.error reason, s)

def flush (s : Sink) : Except String Unit :=
  if s.flushFails then .error "flush failed" else .ok ()

/-- Writes a frame and flushes it. -/
def draw (s : Sink) (screen : Screen) : Except String Unit × Sink :=
  match writePieces screen.pieces s with
  | (.ok (), s) => (s.flush, s)
  | (.error reason, s) => (.error reason, s)

end Sink

end Chip8
