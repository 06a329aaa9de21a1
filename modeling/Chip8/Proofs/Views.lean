import Chip8.Display.Glyph
import Chip8.Display.Panel
import Mathlib.Data.List.Nodup

set_option autoImplicit false

/-! # One picture, many views

A screen is shown in many ways: packed in bytes, as rows of pixels, as text with marks, as glyphs
for a terminal, and as two planes of points that are painted on a canvas. Each of them has an order
and an indexing of its own. The theorem `Screen.views_agree` says that they all show the same
picture, pixel by pixel.

The two kinds of text are cut into lines at the line feeds, which is possible because no mark is a
line feed (`charAt?_lines`). The planes are what is left of the list of all pixels, row by row, once
the pixels of the other kind are struck out (`Screen.plane_eq`), so their points are different ones,
they keep the order of the list, and each point is in one plane and not in the other. -/

namespace Chip8

/-- The character at a column and a line of a text whose lines end with a line feed. -/
def charAt? (text : String) (column line : Nat) : Option Char :=
  (text.toList.splitOn '\n')[line]?.bind (·[column]?)

theorem splitOn_lines {lines : List (List Char)} (h : ∀ line ∈ lines, '\n' ∉ line) :
    (lines.flatMap (· ++ ['\n'])).splitOn '\n' = lines ++ [[]] := by
  induction lines with
  | nil => rfl
  | cons line rest ih =>
    rw [List.forall_mem_cons] at h
    rw [List.flatMap_cons, List.append_assoc, List.singleton_append,
      List.splitOn_append_cons_self, List.splitOn_eq_singleton h.1, ih h.2]
    rfl

/-- What follows the last line feed is empty, so it has no character at any column. -/
theorem charAt?_lines {text : String} {lines : List (List Char)}
    (htext : text.toList = lines.flatMap (· ++ ['\n'])) (h : ∀ line ∈ lines, '\n' ∉ line)
    (column line : Nat) : charAt? text column line = lines[line]?.bind (·[column]?) := by
  rw [charAt?, htext, splitOn_lines h, List.getElem?_append]
  split
  · rfl
  · next hlast =>
    rw [List.getElem?_eq_none (Nat.le_of_not_lt hlast)]
    cases line - lines.length <;> rfl

namespace Screen

/-! ## All pixels -/

/-- The coordinates of all pixels, row by row. -/
def grid : List (Nat × Nat) :=
  (List.range height).flatMap fun y => (List.range width).map fun x => (x, y)

theorem mem_grid {x y : Nat} : (x, y) ∈ grid ↔ x < width ∧ y < height := by
  simp [grid, and_comm]

/-- The pixels come row by row, and from left to right in a row. -/
theorem pairwise_grid : grid.Pairwise fun p q => p.2 < q.2 ∨ p.2 = q.2 ∧ p.1 < q.1 := by
  rw [grid, List.pairwise_flatMap]
  refine ⟨fun y _ => ?_, List.pairwise_lt_range.imp fun hlt p hp q hq => ?_⟩
  · exact List.pairwise_map.mpr (List.pairwise_lt_range.imp fun hlt => .inr ⟨rfl, hlt⟩)
  · obtain ⟨x, -, rfl⟩ := List.mem_map.mp hp
    obtain ⟨x', -, rfl⟩ := List.mem_map.mp hq
    exact .inl hlt

theorem nodup_grid : grid.Nodup := by
  refine pairwise_grid.imp fun {p q} hlt heq => ?_
  rw [heq] at hlt
  omega

theorem length_grid : grid.length = width * height := by
  simp [grid, Nat.mul_comm]

variable {s : Screen} {x y : Nat}

/-! ## Bytes, rows and text -/

theorem bit_toBytes (hx : x < width) (hy : y < height) :
    (s.toBytes[8 * y + x / 8]?.map fun byte => byte.toNat.testBit (7 - x % 8)) =
      some (s.get x y) := by
  have hcell : 8 * y + x / 8 = (cell x y).val := by
    simp only [cell, cellIndex, Nat.mod_eq_of_lt hx, Nat.mod_eq_of_lt hy]
  rw [hcell, toBytes, Vector.getElem?_toList, Vector.getElem?_eq_getElem (cell x y).isLt]
  rfl

theorem getElem?_rows (hy : y < height) : s.rows[y]? = some (s.row y) := by
  rw [rows, List.getElem?_map, List.getElem?_range hy, Option.map_some]

theorem getElem?_row (hx : x < width) : (s.row y)[x]? = some (s.get x y) := by
  rw [row, List.getElem?_map, List.getElem?_range hx, Option.map_some]

/-- The lines of a text that has a mark for each pixel, and after them what ends each line but for
    the line feed. -/
def lines (s : Screen) (mark : Bool → Char) (ending : List Char) : List (List Char) :=
  s.rows.map fun row => row.map mark ++ ending

theorem not_mem_of_mem_lines {mark : Bool → Char} {ending : List Char}
    (hmark : ∀ lit, mark lit ≠ '\n') (hending : '\n' ∉ ending) :
    ∀ line ∈ s.lines mark ending, '\n' ∉ line := by
  intro line hline hmem
  obtain ⟨row, -, rfl⟩ := List.mem_map.mp hline
  rcases List.mem_append.mp hmem with hpixel | hend
  · obtain ⟨lit, -, hlit⟩ := List.mem_map.mp hpixel
    exact hmark lit hlit
  · exact hending hend

theorem bind_lines (mark : Bool → Char) (ending : List Char) (hx : x < width) (hy : y < height) :
    (s.lines mark ending)[y]?.bind (·[x]?) = some (mark (s.get x y)) := by
  have hlt : x < ((s.row y).map mark).length := by simpa [row] using hx
  rw [lines, List.getElem?_map, getElem?_rows hy, Option.map_some, Option.bind_some,
    List.getElem?_append_left hlt, List.getElem?_map, getElem?_row hx, Option.map_some]

theorem charAt?_text (hx : x < width) (hy : y < height) :
    charAt? s.text x y = some (if s.get x y then '#' else '.') := by
  have htext : s.text.toList =
      (s.lines (fun lit => if lit then '#' else '.') []).flatMap (· ++ ['\n']) := by
    simp [text, lines, String.toList_join, List.flatMap_map]
  rw [charAt?_lines htext (not_mem_of_mem_lines (by decide) (by decide)), bind_lines _ _ hx hy]

/-- The lines of glyphs in a frame, without the codes before them. -/
def glyphLines (s : Screen) : String := String.join (s.rows.map glyphLine)

theorem frame_eq (s : Screen) : s.frame = clearCode ++ homeCode ++ s.glyphLines := by
  rw [frame, pieces, String.join_cons, String.join_cons, ← String.append_assoc, glyphLines]

theorem charAt?_glyphLines (hx : x < width) (hy : y < height) :
    charAt? s.glyphLines x y = some (glyph (s.get x y)) := by
  have htext : s.glyphLines.toList = (s.lines glyph ['\r']).flatMap (· ++ ['\n']) := by
    simp [glyphLines, glyphLine, lines, String.toList_join, List.flatMap_map]
  rw [charAt?_lines htext (not_mem_of_mem_lines (by decide) (by decide)), bind_lines _ _ hx hy]

/-! ## Planes -/

/-- The point of the canvas that stands for a pixel. -/
def point (x y : Nat) : Point := ((x : Int), -(y : Int))

theorem plane_eq (s : Screen) (lit : Bool) :
    s.plane lit = (grid.filter fun p => s.get p.1 p.2 == lit).map fun p => point p.1 p.2 := by
  simp only [plane, grid, List.filter_flatMap, List.map_flatMap, List.filter_map, List.map_map]
  rfl

theorem mem_plane {lit : Bool} (hx : x < width) (hy : y < height) :
    point x y ∈ s.plane lit ↔ s.get x y = lit := by
  rw [plane_eq, List.mem_map]
  constructor
  · rintro ⟨p, hp, hpoint⟩
    obtain ⟨rfl, rfl⟩ : p.1 = x ∧ p.2 = y := by
      simp only [point, Prod.mk.injEq] at hpoint
      omega
    exact beq_iff_eq.mp (List.mem_filter.mp hp).2
  · intro hget
    exact ⟨(x, y), List.mem_filter.mpr ⟨mem_grid.mpr ⟨hx, hy⟩, beq_iff_eq.mpr hget⟩, rfl⟩

/-- The points of a plane come row by row, downwards, and from left to right in a row. -/
theorem pairwise_plane (s : Screen) (lit : Bool) :
    (s.plane lit).Pairwise fun p q => q.2 < p.2 ∨ q.2 = p.2 ∧ p.1 < q.1 := by
  rw [plane_eq, List.pairwise_map]
  refine (pairwise_grid.filter _).imp fun {p q} hlt => ?_
  simp only [point]
  omega

theorem nodup_plane (s : Screen) (lit : Bool) : (s.plane lit).Nodup := by
  refine (s.pairwise_plane lit).imp fun {p q} hlt heq => ?_
  rw [heq] at hlt
  omega

theorem count_planes (hx : x < width) (hy : y < height) :
    (s.plane true ++ s.plane false).count (point x y) = 1 := by
  rw [List.count_append, (s.nodup_plane true).count, (s.nodup_plane false).count]
  cases hget : s.get x y <;> simp [mem_plane hx hy, hget]

theorem length_planes (s : Screen) :
    (s.plane true ++ s.plane false).length = width * height := by
  have hother : (fun p : Nat × Nat => s.get p.1 p.2 == false) =
      fun p => !(s.get p.1 p.2 == true) := by
    funext p
    cases s.get p.1 p.2 <;> rfl
  rw [plane_eq, plane_eq, ← List.map_append, List.length_map, hother,
    (List.filter_append_perm _ grid).length_eq, length_grid]

end Screen

/-! ## The canvas -/

namespace Panel

/-- The place of a point on the canvas, counted row by row. -/
def slot (p : Point) : Nat := Screen.width * (-p.2).toNat + p.1.toNat

/-- The canvas before anything is painted on it. -/
def blank : Canvas := Vector.replicate _ .default

/-- Painting points gives them the color, and leaves the other cells of the canvas as they were. -/
theorem getElem?_paint (canvas : Canvas) (color : Color) (points : List Point) {i : Nat}
    (hi : i < Screen.width * Screen.height) :
    (paint canvas color points)[i]? =
      if i ∈ points.map slot then some color else canvas[i]? := by
  induction points generalizing canvas with
  | nil => rfl
  | cons p rest ih =>
    have hfirst : paint canvas color (p :: rest) =
        paint (canvas.setIfInBounds (slot p) color) color rest := rfl
    rw [hfirst, ih, Vector.getElem?_setIfInBounds, List.map_cons]
    by_cases hp : slot p = i
    · simp only [hp, hi, List.mem_cons, true_or, if_true, ite_self]
    · simp only [hp, Ne.symm hp, List.mem_cons, false_or, if_false]

variable {s : Screen} {x y : Nat}

theorem slot_point (x y : Nat) : slot (Screen.point x y) = Screen.width * y + x := by
  simp [slot, Screen.point]

theorem mem_slots {lit : Bool} (hx : x < Screen.width) (hy : y < Screen.height) :
    Screen.width * y + x ∈ (s.plane lit).map slot ↔ s.get x y = lit := by
  rw [← Screen.mem_plane hx hy, List.mem_map]
  constructor
  · rintro ⟨p, hp, hslot⟩
    rw [Screen.plane_eq] at hp
    obtain ⟨⟨a, b⟩, hab, rfl⟩ := List.mem_map.mp hp
    have ha : a < Screen.width := (Screen.mem_grid.mp (List.mem_filter.mp hab).1).1
    -- a column is less than the width, so the place tells the row and the column
    rw [slot_point] at hslot
    obtain ⟨rfl, rfl⟩ : a = x ∧ b = y := by
      simp only [Screen.width] at ha hx hslot
      omega
    exact Screen.plane_eq s lit ▸ hp
  · intro hmem
    exact ⟨Screen.point x y, hmem, slot_point x y⟩

/-- A plane on its own paints the cells of its pixels, and no others. -/
theorem getElem?_paint_plane (canvas : Canvas) (color : Color) (lit : Bool)
    (hx : x < Screen.width) (hy : y < Screen.height) :
    (paint canvas color (s.plane lit))[Screen.width * y + x]? =
      if s.get x y = lit then some color else canvas[Screen.width * y + x]? := by
  have hi : Screen.width * y + x < Screen.width * Screen.height := by
    simp only [Screen.width, Screen.height] at hx hy ⊢
    omega
  rw [getElem?_paint _ _ _ hi]
  exact if_congr (mem_slots hx hy) rfl rfl

theorem getElem?_canvas (s : Screen) (hx : x < Screen.width) (hy : y < Screen.height) :
    (canvas s)[Screen.width * y + x]? = some (if s.get x y then .white else .black) := by
  rw [canvas, getElem?_paint_plane _ _ _ hx hy, getElem?_paint_plane _ _ _ hx hy]
  cases s.get x y <;> rfl

theorem cell_canvas (s : Screen) (hx : x < Screen.width) (hy : y < Screen.height) :
    cell (canvas s) (x + 1) (y + 1) =
      { char := '▄', text := if s.get x y then .white else .black } := by
  have hbox : x + 1 < boxWidth ∧ y + 1 < boxHeight := by
    simp only [boxWidth, boxHeight]
    omega
  have hinside : 0 < x + 1 ∧ x + 1 < boxWidth - 1 ∧ 0 < y + 1 ∧ y + 1 < boxHeight - 1 := by
    simp only [boxWidth, boxHeight]
    omega
  rw [cell, if_pos hbox, if_pos hinside, Nat.add_sub_cancel, Nat.add_sub_cancel,
    getElem?_canvas s hx hy, Option.getD_some]

end Panel

namespace Screen

/-- **All views of a screen agree.** Whether the pixel at (`x`, `y`) is lit can be seen at any
    coordinates that wrap around to it, in its bit of the packed bytes, in the rows, from the mark
    in the text, from the glyph in a frame, and from which of the two planes has its point. Each
    point is in one plane, once, and the points of a plane come row by row. So every cell of the
    canvas is painted from one plane, and left alone by the other. -/
theorem views_agree (s : Screen) :
    (∀ (x : Fin width) (y : Fin height),
      (∀ a b, s.get (x + width * a) (y + height * b) = s.get x y) ∧
      (s.toBytes[8 * y.val + x / 8]?.map fun byte => byte.toNat.testBit (7 - x % 8)) =
        some (s.get x y) ∧
      s.rows[y.val]?.bind (·[x.val]?) = some (s.get x y) ∧
      (charAt? s.text x y = some '#' ↔ s.get x y = true) ∧
      (charAt? s.glyphLines x y = some '█' ↔ s.get x y = true) ∧
      (((x : Int), -(y : Int)) ∈ s.plane true ↔ s.get x y = true) ∧
      (((x : Int), -(y : Int)) ∉ s.plane false ↔ s.get x y = true) ∧
      (s.plane true ++ s.plane false).count ((x : Int), -(y : Int)) = 1 ∧
      (Panel.paint Panel.blank .black (s.plane false))[width * y.val + x]? =
        some (if s.get x y then .default else .black) ∧
      (Panel.paint Panel.blank .white (s.plane true))[width * y.val + x]? =
        some (if s.get x y then .white else .default) ∧
      Panel.cell (Panel.canvas s) (x + 1) (y + 1) =
        { char := '▄', text := if s.get x y then .white else .black }) ∧
    s.frame = clearCode ++ homeCode ++ s.glyphLines ∧
    (s.plane true ++ s.plane false).length = 2048 ∧
    ∀ lit, (s.plane lit).Pairwise fun p q => q.2 < p.2 ∨ q.2 = p.2 ∧ p.1 < q.1 := by
  refine ⟨fun ⟨x, hx⟩ ⟨y, hy⟩ => ?_, s.frame_eq, s.length_planes, s.pairwise_plane⟩
  have hblank : Panel.blank[width * y + x]? = some .default := by
    have hi : width * y + x < width * height := by
      simp only [width, height] at hx hy ⊢
      omega
    rw [Panel.blank, Vector.getElem?_replicate, if_pos hi]
  refine ⟨fun a b => ?_, bit_toBytes hx hy, ?_, ?_, ?_, mem_plane hx hy, ?_, count_planes hx hy, ?_,
    ?_, Panel.cell_canvas s hx hy⟩
  · rw [← s.get_mod, Nat.add_mul_mod_self_left, Nat.add_mul_mod_self_left, s.get_mod]
  · rw [getElem?_rows hy, Option.bind_some, getElem?_row hx]
  · rw [charAt?_text hx hy]
    cases s.get x y <;> decide
  · rw [charAt?_glyphLines hx hy]
    cases s.get x y <;> decide
  · show point x y ∉ s.plane false ↔ _
    rw [mem_plane hx hy, Bool.not_eq_false]
  · rw [Panel.getElem?_paint_plane _ _ _ hx hy, hblank]
    cases s.get x y <;> rfl
  · rw [Panel.getElem?_paint_plane _ _ _ hx hy, hblank]
    cases s.get x y <;> rfl

end Screen

end Chip8
