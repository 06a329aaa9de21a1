import Chip8.Screen.Basic
import Chip8.Text.Numeral

set_option autoImplicit false

/-! # The picture on a panel

A terminal seen as a grid of cells, each with a character, a text colour and a background colour.
The picture stands in a titled box in the top left corner, one cell a pixel. It is painted in two
*planes*, the points of the dark pixels in black and then those of the lit ones in white; points
have their second coordinate upwards, so the rows of the screen count downwards from zero. Cells
beyond the box are blank. The cursor is hidden as long as the panel is in use. -/

namespace Chip8

/-- The colour of a cell's text or background. -/
inductive Color where
  /-- Whatever the terminal uses. -/
  | default
  | black
  | white
  deriving DecidableEq, Inhabited

/-- One cell of a terminal. -/
structure Cell where
  char : Char := ' '
  text : Color := .default
  background : Color := .default
  deriving DecidableEq, Inhabited

/-! ## Planes -/

/-- A point of the canvas: the column, and the height above the top row. -/
abbrev Point := Int × Int

/-- The points of all pixels that are lit, or of all that are dark, row by row. -/
def Screen.plane (s : Screen) (lit : Bool) : List Point :=
  (List.range Screen.height).flatMap fun y =>
    ((List.range Screen.width).filter fun x => s.get x y == lit).map fun (x : Nat) =>
      ((x : Int), -(y : Int))

namespace Panel

/-! ## Painting -/

/-- The colours of the cells inside the box, row by row. -/
abbrev Canvas := Vector Color (Screen.width * Screen.height)

/-- The canvas with some points painted. -/
def paint (canvas : Canvas) (color : Color) (points : List Point) : Canvas :=
  points.foldl
    (fun canvas (x, y) => canvas.setIfInBounds (Screen.width * (-y).toNat + x.toNat) color) canvas

/-- The canvas with the picture: the dark plane in black, then the lit plane in white. -/
def canvas (s : Screen) : Canvas :=
  paint (paint (Vector.replicate _ .default) .black (s.plane false)) .white (s.plane true)

/-! ## The box -/

/-- How many columns the box takes: the picture and a border on either side. -/
def boxWidth : Nat := Screen.width + 2

/-- How many rows the box takes: the picture and a border above and below. -/
def boxHeight : Nat := Screen.height + 2

/-- What stands in the upper border, right after the corner. -/
def title : List Char := "CHIP-8".toList

/-- The character of the border at a column and a row of the box. -/
def borderChar (column row : Nat) : Char :=
  if row = 0 then
    if column = 0 then '┌'
    else if column = boxWidth - 1 then '┐'
    else title.getD (column - 1) '─'
  else if row = boxHeight - 1 then
    if column = 0 then '└'
    else if column = boxWidth - 1 then '┘'
    else '─'
  else '│'

/-- The cell at a column and a row of the terminal, for a canvas that has been painted. -/
def cell (canvas : Canvas) (column row : Nat) : Cell :=
  if column < boxWidth ∧ row < boxHeight then
    if 0 < column ∧ column < boxWidth - 1 ∧ 0 < row ∧ row < boxHeight - 1 then
      { char := '▄', text := canvas[Screen.width * (row - 1) + (column - 1)]?.getD .default }
    else
      { char := borderChar column row, background := .black }
  else {}

/-- The top left part of the terminal with the picture, row by row. -/
def cells (s : Screen) (columns rows : Nat) : List (List Cell) :=
  let canvas := canvas s
  (List.range rows).map fun row => (List.range columns).map fun column => cell canvas column row

/-! ## Codes for a terminal -/

def hideCursorCode : String := "\x1b[?25l"

def showCursorCode : String := "\x1b[?25h"

/-- Is the cursor shown while the panel is in use, and after that? -/
def cursorShown (inUse : Bool) : Bool := !inUse

/-- The code that a colour adds to the number of its kind of code. -/
def colorOffset : Color → Nat
  | .default => 9
  | .black => 0
  | .white => 7

/-- A cell as text for a terminal, with the codes of its colours. -/
def cellText (c : Cell) : String :=
  "\x1b[" ++ Numeral.decimal (30 + colorOffset c.text) ++ ";"
    ++ Numeral.decimal (40 + colorOffset c.background) ++ "m" ++ c.char.toString

/-- The box with the picture as text for a terminal, from the top left corner on. -/
def frame (s : Screen) : String :=
  "\x1b[1;1H" ++ String.join ((cells s boxWidth boxHeight).map fun row =>
    String.join (row.map cellText) ++ "\x1b[0m\r\n")

end Panel

end Chip8
