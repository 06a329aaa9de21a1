import Chip8.Text.Invisible
import Chip8.Text.Numeral

set_option autoImplicit false

/-! # Quoted characters

A typed character appears in a message between single quotes. The quote itself, the backslash and
the common control characters have two-character escapes; other characters without a glyph are
given by their code point. -/

namespace Chip8

/-- How a character is written between single quotes. -/
def escapeChar (c : Char) : String :=
  if c = '\x00' then "\\0"
  else if c = '\t' then "\\t"
  else if c = '\r' then "\\r"
  else if c = '\n' then "\\n"
  else if c = '\x27' then "\\'"
  else if c = '\x5c' then "\\\\"
  else if isInvisible c then "\\u\x7b" ++ Numeral.hex 1 c.toNat ++ "\x7d"
  else c.toString

/-- The character between single quotes. -/
def quoteChar (c : Char) : String := "'" ++ escapeChar c ++ "'"

end Chip8
