import Chip8.FaultKind

set_option autoImplicit false

/-! # The screen

A bitmap of 64 columns and 32 rows, one bit a pixel, packed row by row with eight pixels to a byte,
the leftmost in the high bit. Coordinates wrap around at the edges. Drawing flips pixels; a
*collision* is a lit pixel that goes dark.

Plotting looks up the byte of a pixel with a check, as every access to memory is checked, and what
has been plotted before a failed check stays. Since coordinates wrap around, no check ever fails
(`plot_eq`): every pixel operation is defined everywhere.

The screen is looked at through `Screen.get`, whether a pixel is lit. -/

namespace Chip8

/-- The picture in black and white. -/
structure Screen where
  cells : Vector UInt8 256
  deriving DecidableEq, Inhabited

namespace Screen

abbrev width : Nat := 64

abbrev height : Nat := 32

def dark : Screen := { cells := Vector.replicate 256 0 }

/-! ## Single pixels -/

/-- Where among the bytes the pixel at (`x`, `y`) is held. -/
def cellIndex (x y : Nat) : Nat := 8 * (y % height) + x % width / 8

theorem cellIndex_lt (x y : Nat) : cellIndex x y < 256 := by
  unfold cellIndex width height
  omega

/-- The byte that holds the pixel at (`x`, `y`). -/
def cell (x y : Nat) : Fin 256 := ⟨cellIndex x y, cellIndex_lt x y⟩

/-- The bit of its byte that holds a pixel of column `x`; the leftmost column has the high bit. -/
def bit (x : Nat) : Nat := 7 - x % 8

/-- The byte with nothing but the bit for column `x`. -/
def mask (x : Nat) : UInt8 := 1 <<< UInt8.ofNat (bit x)

/-- Is the pixel at (`x`, `y`) lit? -/
def get (s : Screen) (x y : Nat) : Bool := s.cells[cell x y].toBitVec.getLsbD (bit x)

def flip (s : Screen) (x y : Nat) : Screen :=
  { cells := s.cells.set (cell x y) (s.cells[cell x y] ^^^ mask x) }

theorem get_dark (x y : Nat) : dark.get x y = false := by
  simp [get, dark]

/-- A mask has the bit of its own column and no other. -/
theorem getLsbD_mask (x a : Nat) : (mask x).toBitVec.getLsbD (bit a) = decide (x % 8 = a % 8) := by
  have key : ∀ i j : Fin 8,
      ((1 : UInt8) <<< UInt8.ofNat (7 - i.val)).toBitVec.getLsbD (7 - j.val) =
        decide (i.val = j.val) := by decide
  exact key ⟨x % 8, Nat.mod_lt _ (by decide)⟩ ⟨a % 8, Nat.mod_lt _ (by decide)⟩

/-- Coordinates share a byte and a bit only if they name the same pixel. -/
theorem cell_eq_iff (x y a b : Nat) :
    (cell x y = cell a b ∧ x % 8 = a % 8) ↔ (x % width = a % width ∧ y % height = b % height) := by
  simp only [cell, cellIndex, width, height, Fin.mk.injEq]
  omega

/-- Flipping changes one pixel and leaves the others alone. -/
theorem get_flip (s : Screen) (x y a b : Nat) :
    (s.flip x y).get a b =
      (s.get a b ^^ decide (x % width = a % width ∧ y % height = b % height)) := by
  have hd : decide (x % width = a % width ∧ y % height = b % height) =
      decide (cell x y = cell a b ∧ x % 8 = a % 8) := decide_eq_decide.2 (cell_eq_iff x y a b).symm
  rw [hd]
  by_cases hc : cell x y = cell a b
  · simp [get, flip, hc, getLsbD_mask, UInt8.toBitVec_xor]
  · have hne : (cell x y).val ≠ (cell a b).val := fun h => hc (Fin.ext h)
    simp [get, flip, hc, hne]

/-- Coordinates wrap around at the edges. -/
theorem get_mod (s : Screen) (x y : Nat) : s.get (x % width) (y % height) = s.get x y := by
  have hc : cell (x % width) (y % height) = cell x y := by simp [cell, cellIndex]
  have hb : bit (x % width) = bit x := by unfold bit width; omega
  simp only [get, hc, hb]

/-- A screen is known by its pixels. -/
theorem ext_get {s t : Screen} (h : ∀ x < width, ∀ y < height, s.get x y = t.get x y) : s = t := by
  cases s with | mk c => cases t with | mk d =>
  congr 1
  apply Vector.ext
  intro i hi
  apply UInt8.eq_of_toBitVec_eq
  apply BitVec.eq_of_getLsbD_eq
  intro k hk
  have := h (8 * (i % 8) + (7 - k)) (by unfold width; omega) (i / 8) (by unfold height; omega)
  have hc : cell (8 * (i % 8) + (7 - k)) (i / 8) = ⟨i, hi⟩ := by
    simp only [cell, cellIndex, width, height, Fin.mk.injEq]
    omega
  have hb : bit (8 * (i % 8) + (7 - k)) = k := by unfold bit; omega
  simpa [get, hc, hb] using this

/-! ## Plotting -/

/-- What came of plotting: whether any lit pixel went dark, or what is wrong, and in either case the
    screen as it is left. -/
abbrev Plotted := Except FaultKind Bool × Screen

/-- One plotting after another. A fault ends it; else the answer is whether either of them made a
    lit pixel go dark. -/
def Plotted.andThen (first : Plotted) (next : Screen → Plotted) : Plotted :=
  match first with
  | (.error kind, s) => (.error kind, s)
  | (.ok hit, s) =>
    match next s with
    | (.error kind, s) => (.error kind, s)
    | (.ok hits, s) => (.ok (hit || hits), s)

/-- Does the plotting go through, whatever its answer? -/
def Plotted.Succeeds (p : Plotted) : Prop := ∃ hit, p.1 = .ok hit

/-- Two plottings go through if each of them does. -/
theorem Plotted.Succeeds.andThen {first : Plotted} {next : Screen → Plotted}
    (hfirst : first.Succeeds) (hnext : ∀ s, (next s).Succeeds) : (first.andThen next).Succeeds := by
  obtain ⟨result, s⟩ := first
  obtain ⟨hit, rfl⟩ : ∃ hit, result = .ok hit := hfirst
  obtain ⟨hits, hhits⟩ := hnext s
  refine ⟨hit || hits, ?_⟩
  simp only [Plotted.andThen]
  split
  · next hkind => simp [hkind] at hhits
  · next hok => simp_all

/-- Flips the pixel at (`x`, `y`). The answer is whether it was lit, and so went dark. -/
def plot (s : Screen) (x y : Nat) : Plotted :=
  if h : cellIndex x y < 256 then
    (.ok (s.cells[cellIndex x y].toBitVec.getLsbD (bit x)),
      { cells := s.cells.set (cellIndex x y) (s.cells[cellIndex x y] ^^^ mask x) })
  else
    (.error (.pixelOutOfRange (x % width) (y % height)), s)

/-- Plotting a pixel flips it, wherever it is. -/
theorem plot_eq (s : Screen) (x y : Nat) : s.plot x y = (.ok (s.get x y), s.flip x y) :=
  dif_pos (cellIndex_lt x y)

/-- Flips the pixels of a row of eight that starts at (`x`, `y`), given as bits with the leftmost
    high, in the listed columns of the row. -/
def plotBits (s : Screen) (x y : Nat) (row : UInt8) : List Nat → Plotted
  | [] => (.ok false, s)
  | k :: rest =>
    if row.toBitVec.getLsbD (7 - k) then
      (s.plot (x + k) y).andThen fun s => s.plotBits x y row rest
    else s.plotBits x y row rest

theorem succeeds_plotBits (s : Screen) (x y : Nat) (row : UInt8) (columns : List Nat) :
    (s.plotBits x y row columns).Succeeds := by
  induction columns generalizing s with
  | nil => exact ⟨false, rfl⟩
  | cons k rest ih =>
    rw [plotBits]
    split
    · exact Plotted.Succeeds.andThen ⟨_, congrArg Prod.fst (s.plot_eq (x + k) y)⟩ ih
    · exact ih s

/-- Flips the pixels of a row of eight that starts at (`x`, `y`), given as bits with the leftmost
    high. The answer is whether any lit pixel went dark. -/
def plotRow (s : Screen) (x y : Nat) (row : UInt8) : Plotted :=
  s.plotBits x y row (List.range 8)

/-- Flips the rows of a sprite whose top left pixel is (`x`, `y`). The answer is whether any lit
    pixel went dark. -/
def plotRows (s : Screen) (x y : Nat) : List UInt8 → Plotted
  | [] => (.ok false, s)
  | row :: rest => (s.plotRow x y row).andThen fun s => s.plotRows x (y + 1) rest

/-- Every sprite can be plotted everywhere. -/
theorem succeeds_plotRows (s : Screen) (x y : Nat) (rows : List UInt8) :
    (s.plotRows x y rows).Succeeds := by
  induction rows generalizing s y with
  | nil => exact ⟨false, rfl⟩
  | cons row rest ih =>
    exact Plotted.Succeeds.andThen (s.succeeds_plotBits x y row _) fun s => ih s (y + 1)

/-! ## Views -/

/-- The packed pixels in order, for whoever draws them. -/
def toBytes (s : Screen) : List UInt8 := s.cells.toList

/-- The pixels of row `y`, left to right. -/
def row (s : Screen) (y : Nat) : List Bool := (List.range width).map fun x => s.get x y

/-- The rows of pixels, top to bottom. -/
def rows (s : Screen) : List (List Bool) := (List.range height).map s.row

/-- The picture as text: a line for each row, with marks for the lit pixels. -/
def text (s : Screen) : String :=
  String.join (s.rows.map fun row =>
    String.ofList (row.map fun lit => if lit then '#' else '.') ++ "\n")

end Screen

end Chip8
