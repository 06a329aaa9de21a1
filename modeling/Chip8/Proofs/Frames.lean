import Chip8.Proofs.Sprites
import Chip8.Proofs.Views
import Mathlib.Data.List.GetD

set_option autoImplicit false

/-! # Frames on a sink that fills up

A frame is written to a sink in pieces, any of which may find the sink full and be cut, and after an
error the next frame is tried all the same. Yet what a sink has taken depends only on what it has
been offered. How that was cut into pieces makes no difference (`Sink.writePieces_eq_write`), and a
sink with a limit holds the first bytes of all that it has been offered since it was empty
(`Sink.write_offered`). So a frame goes through just when all frames so far fit.

No space and no first byte of a full block occurs in the codes of a frame or at the end of a line,
so the pixels can be read off the bytes one after the other (`filterMap_encoding`), and the screens
from the pixels (`readFrames_flatMap`). -/

namespace Chip8

/-! ## Frames in bytes -/

/-- The glyph of a pixel in bytes: three for a full block, one for a space. -/
def glyphBytes (lit : Bool) : List UInt8 := if lit then [0xe2, 0x96, 0x88] else [0x20]

/-- A row of pixels in bytes: the glyphs, a carriage return and a line feed. -/
def lineBytes (row : List Bool) : List UInt8 := row.flatMap glyphBytes ++ [0x0d, 0x0a]

/-- A frame in bytes: the code `ESC [ 2 J`, the code `ESC [ 1 ; 1 H`, and a line for each row. -/
def Screen.encoding (s : Screen) : List UInt8 :=
  [0x1b, 0x5b, 0x32, 0x4a] ++ [0x1b, 0x5b, 0x31, 0x3b, 0x31, 0x48] ++ s.rows.flatMap lineBytes

theorem toList_loop (bytes : ByteArray) (i : Nat) (seen : List UInt8) :
    ByteArray.toList.loop bytes i seen = seen.reverse ++ bytes.data.toList.drop i := by
  fun_induction ByteArray.toList.loop bytes i seen with
  | case1 i seen hlt ih =>
    rw [ih, List.drop_eq_getElem_cons hlt, List.reverse_cons, List.append_assoc]
    congr 2
    show [bytes.data[i]!] ++ _ = _
    simp [getElem!_pos, hlt]
  | case2 i seen hle =>
    rw [List.drop_eq_nil_of_le (Nat.not_lt.mp hle), List.append_nil]

theorem toList_toUTF8 (text : String) :
    text.toUTF8.toList = text.toList.flatMap String.utf8EncodeChar := by
  rw [ByteArray.toList, toList_loop, String.toUTF8, ← String.utf8Encode_toList, List.utf8Encode,
    List.toList_data_toByteArray]
  rfl

theorem utf8EncodeChar_glyph (lit : Bool) : String.utf8EncodeChar (glyph lit) = glyphBytes lit := by
  cases lit <;> decide

theorem toList_toUTF8_glyphLine (row : List Bool) :
    (glyphLine row).toUTF8.toList = lineBytes row := by
  have hend : "\r\n".toList.flatMap String.utf8EncodeChar = [0x0d, 0x0a] := by decide
  rw [toList_toUTF8, glyphLine, String.toList_append, String.toList_ofList, List.flatMap_append,
    hend, List.flatMap_map, lineBytes]
  simp only [utf8EncodeChar_glyph]

theorem flatMap_pieces (s : Screen) :
    (s.pieces.flatMap fun piece => piece.toUTF8.toList) = s.encoding := by
  have hclear : clearCode.toUTF8.toList = [0x1b, 0x5b, 0x32, 0x4a] := by
    rw [toList_toUTF8]
    decide
  have hhome : homeCode.toUTF8.toList = [0x1b, 0x5b, 0x31, 0x3b, 0x31, 0x48] := by
    rw [toList_toUTF8]
    decide
  rw [Screen.pieces, List.flatMap_cons, List.flatMap_cons, hclear, hhome, List.flatMap_map,
    Screen.encoding, List.append_assoc]
  simp only [toList_toUTF8_glyphLine]

theorem toList_toUTF8_frame (s : Screen) : s.frame.toUTF8.toList = s.encoding := by
  rw [toList_toUTF8, Screen.frame, String.toList_join, List.flatMap_assoc, ← flatMap_pieces]
  simp only [toList_toUTF8]

/-! ## Writing -/

namespace Sink

/-- As many of some bytes as a sink has room for. -/
def fitting (s : Sink) (bytes : List UInt8) : List UInt8 :=
  match s.limit with
  | none => bytes
  | some limit => bytes.take (limit - s.taken.size)

/-- The sink with some more bytes in it. -/
def holding (s : Sink) (bytes : List UInt8) : Sink := { s with taken := s.taken ++ bytes }

section

variable {s : Sink} {bytes : List UInt8}

theorem write_eq (s : Sink) (bytes : List UInt8) :
    s.write bytes =
      (if (s.fitting bytes).length < bytes.length then .error "device full" else .ok (),
        s.holding (s.fitting bytes)) := rfl

theorem holding_append (s : Sink) (bytes more : List UInt8) :
    s.holding (bytes ++ more) = (s.holding bytes).holding more := by
  simp only [holding, Sink.mk.injEq, and_true]
  exact Array.ext' (by simp)

theorem size_holding (s : Sink) (bytes : List UInt8) :
    (s.holding bytes).taken.size = s.taken.size + bytes.length := by
  rw [holding, ← Array.length_toList, Array.toList_appendList, List.length_append,
    Array.length_toList]

theorem fitting_of_unlimited (h : s.limit = none) (bytes : List UInt8) :
    s.fitting bytes = bytes := by
  rw [fitting, h]

theorem fitting_of_limited {limit : Nat} (h : s.limit = some limit) (bytes : List UInt8) :
    s.fitting bytes = bytes.take (limit - s.taken.size) := by
  rw [fitting, h]

theorem length_fitting_le (s : Sink) (bytes : List UInt8) :
    (s.fitting bytes).length ≤ bytes.length := by
  unfold fitting
  split
  · exact Nat.le_refl _
  · exact List.length_take_le' _ _

theorem fitting_append (s : Sink) (bytes more : List UInt8) :
    s.fitting (bytes ++ more) = s.fitting bytes ++ (s.holding (s.fitting bytes)).fitting more := by
  cases hlimit : s.limit with
  | none =>
    have hlimit' : (s.holding (s.fitting bytes)).limit = none := hlimit
    rw [fitting_of_unlimited hlimit, fitting_of_unlimited hlimit', fitting_of_unlimited hlimit]
  | some limit =>
    have hlimit' : (s.holding (s.fitting bytes)).limit = some limit := hlimit
    rw [fitting_of_limited hlimit, fitting_of_limited hlimit', size_holding,
      fitting_of_limited hlimit, List.take_append, List.length_take]
    congr 2
    omega

/-- A sink that had no room for all of some bytes has no room for any more. -/
theorem fitting_of_short (h : (s.fitting bytes).length < bytes.length) (more : List UInt8) :
    (s.holding (s.fitting bytes)).fitting more = [] := by
  cases hlimit : s.limit with
  | none =>
    rw [fitting_of_unlimited hlimit] at h
    exact absurd h (Nat.lt_irrefl _)
  | some limit =>
    have hlimit' : (s.holding (s.fitting bytes)).limit = some limit := hlimit
    rw [fitting_of_limited hlimit, List.length_take] at h
    rw [fitting_of_limited hlimit', size_holding, fitting_of_limited hlimit, List.length_take,
      List.take_eq_nil_iff]
    omega

/-- Bytes that are cut in two are written like the whole, up to the first error. -/
theorem write_append (s : Sink) (bytes more : List UInt8) :
    s.write (bytes ++ more) =
      match s.write bytes with
      | (.ok (), s) => s.write more
      | (.error reason, s) => (.error reason, s) := by
  simp only [write_eq, fitting_append, holding_append, List.length_append]
  by_cases hshort : (s.fitting bytes).length < bytes.length
  · rw [fitting_of_short hshort, List.length_nil, if_pos hshort, if_pos (by omega)]
    rfl
  · have hall : (s.fitting bytes).length = bytes.length :=
      Nat.le_antisymm (s.length_fitting_le bytes) (Nat.le_of_not_lt hshort)
    rw [if_neg hshort, hall]
    simp only [Nat.add_lt_add_iff_left]

/-- Pieces are written like all their bytes at once. -/
theorem writePieces_eq_write (pieces : List String) (s : Sink) :
    writePieces pieces s = s.write (pieces.flatMap fun piece => piece.toUTF8.toList) := by
  induction pieces generalizing s with
  | nil =>
    have hnothing : s.fitting [] = [] :=
      List.eq_nil_of_length_eq_zero (Nat.le_zero.mp (s.length_fitting_le []))
    rw [List.flatMap_nil, write_eq, hnothing]
    rfl
  | cons piece rest ih =>
    rw [List.flatMap_cons, write_append]
    show (match s.write piece.toUTF8.toList with
      | (.ok (), s) => writePieces rest s
      | (.error reason, s) => (.error reason, s)) = _
    simp only [ih]

theorem draw_eq (s : Sink) (screen : Screen) :
    s.draw screen =
      match s.write screen.encoding with
      | (.ok (), s) => (s.flush, s)
      | (.error reason, s) => (.error reason, s) := by
  show (match writePieces screen.pieces s with
    | (.ok (), s) => (s.flush, s)
    | (.error reason, s) => (.error reason, s)) = _
  rw [writePieces_eq_write, flatMap_pieces]

end

/-! ## Frame after frame -/

/-- Draws frames one after the other, each of them whatever came of those before: what came of them,
    and the sink. -/
def drawAll (s : Sink) : List Screen → List (Except String Unit) × Sink
  | [] => ([], s)
  | screen :: rest =>
    let first := s.draw screen
    let others := first.2.drawAll rest
    (first.1 :: others.1, others.2)

/-- As much of some bytes as there may be under a limit, if there is one. -/
def clip (limit : Option Nat) (bytes : List UInt8) : List UInt8 :=
  match limit with
  | none => bytes
  | some limit => bytes.take limit

/-- Are so many bytes within a limit, if there is one? -/
def within (limit : Option Nat) (size : Nat) : Bool := limit.all (size ≤ ·)

/-- A sink that was empty before `bytes` were offered to it, whether or not they fit. -/
def offered (limit : Option Nat) (flushFails : Bool) (bytes : List UInt8) : Sink :=
  { taken := (clip limit bytes).toArray, limit, flushFails }

variable {limit : Option Nat} {flushFails : Bool}

theorem offered_nil (limit : Option Nat) (flushFails : Bool) :
    offered limit flushFails [] = { limit, flushFails } := by
  cases limit <;> simp [offered, clip]

theorem clip_append (flushFails : Bool) (seen bytes : List UInt8) :
    clip limit (seen ++ bytes) =
      clip limit seen ++ (offered limit flushFails seen).fitting bytes := by
  cases limit with
  | none => rfl
  | some limit =>
    have hlimit : (offered (some limit) flushFails seen).limit = some limit := rfl
    rw [fitting_of_limited hlimit, clip, List.take_append, clip]
    congr 2
    simp only [offered, clip, List.size_toArray, List.length_take]
    omega

theorem holding_fitting_offered (seen bytes : List UInt8) :
    (offered limit flushFails seen).holding ((offered limit flushFails seen).fitting bytes) =
      offered limit flushFails (seen ++ bytes) := by
  have htaken : (clip limit seen).toArray ++ (offered limit flushFails seen).fitting bytes =
      (clip limit (seen ++ bytes)).toArray := by
    rw [clip_append flushFails]
    exact Array.ext' (by simp)
  simp only [holding, offered] at htaken ⊢
  rw [htaken]

theorem fitting_offered_lt_iff (seen : List UInt8) {bytes : List UInt8} (hne : bytes ≠ []) :
    ((offered limit flushFails seen).fitting bytes).length < bytes.length ↔
      within limit (seen ++ bytes).length = false := by
  have hpos : 0 < bytes.length := List.length_pos_iff.mpr hne
  cases limit with
  | none =>
    have hlimit : (offered none flushFails seen).limit = none := rfl
    simp [fitting_of_unlimited hlimit, within]
  | some limit =>
    have hlimit : (offered (some limit) flushFails seen).limit = some limit := rfl
    rw [fitting_of_limited hlimit]
    simp only [offered, clip, within, List.size_toArray, List.length_take, List.length_append,
      Option.all_some, decide_eq_false_iff_not]
    omega

/-- A sink that is offered more holds the first bytes of all that it has been offered, and it is an
    error if there is no room for all of that. -/
theorem write_offered (seen : List UInt8) {bytes : List UInt8} (hne : bytes ≠ []) :
    (offered limit flushFails seen).write bytes =
      (if within limit (seen ++ bytes).length then .ok () else .error "device full",
        offered limit flushFails (seen ++ bytes)) := by
  rw [write_eq, holding_fitting_offered, if_congr (fitting_offered_lt_iff seen hne) rfl rfl]
  cases within limit (seen ++ bytes).length <;> rfl

/-- What comes of a frame up to whose end so many bytes have been offered. -/
def outcome (limit : Option Nat) (flushFails : Bool) (size : Nat) : Except String Unit :=
  if within limit size then (if flushFails then .error "flush failed" else .ok ())
  else .error "device full"

theorem draw_offered (seen : List UInt8) (screen : Screen) :
    (offered limit flushFails seen).draw screen =
      (outcome limit flushFails (seen ++ screen.encoding).length,
        offered limit flushFails (seen ++ screen.encoding)) := by
  have hne : screen.encoding ≠ [] := List.cons_ne_nil _ _
  rw [draw_eq, write_offered seen hne, outcome]
  cases within limit (seen ++ screen.encoding).length <;> rfl

theorem drawAll_offered (seen : List UInt8) (screens : List Screen) :
    (offered limit flushFails seen).drawAll screens =
      ((List.range screens.length).map fun i =>
          outcome limit flushFails (seen ++ (screens.take (i + 1)).flatMap Screen.encoding).length,
        offered limit flushFails (seen ++ screens.flatMap Screen.encoding)) := by
  induction screens generalizing seen with
  | nil => simp [drawAll]
  | cons screen rest ih =>
    simp only [drawAll, draw_offered, ih, List.length_cons, List.range_succ_eq_map, List.map_cons,
      List.map_map, List.flatMap_cons, List.append_assoc, List.take_succ_cons]
    simp [Function.comp_def]

end Sink

/-! ## Reading frames back -/

/-- The pixel whose glyph begins with a byte, if there is one. -/
def pixel? (byte : UInt8) : Option Bool :=
  if byte = 0x20 then some false else if byte = 0xe2 then some true else none

/-- The screen with the pixels lit that `lit` names. -/
def Screen.ofLit (lit : Nat → Nat → Bool) : Screen :=
  dark.flipAll (grid.filter fun p => lit p.1 p.2)

/-- The screens whose frames some bytes are made of. -/
def readFrames (bytes : List UInt8) : List Screen :=
  let pixels := bytes.filterMap pixel?
  (List.range (pixels.length / 2048)).map fun k =>
    Screen.ofLit fun x y => pixels.getD (2048 * k + (64 * y + x)) false

theorem wrap_of_mem_grid {p : Nat × Nat} (h : p ∈ Screen.grid) : wrap p = p := by
  obtain ⟨hx, hy⟩ := Screen.mem_grid.mp h
  rw [wrap, Nat.mod_eq_of_lt hx, Nat.mod_eq_of_lt hy]

theorem Screen.get_ofLit (lit : Nat → Nat → Bool) {x y : Nat} (hx : x < width) (hy : y < height) :
    (ofLit lit).get x y = lit x y := by
  have hgrid : (x, y) ∈ grid := mem_grid.mpr ⟨hx, hy⟩
  have hwrap : (grid.filter fun p => lit p.1 p.2).map wrap = grid.filter fun p => lit p.1 p.2 := by
    rw [List.map_congr_left fun p hp => wrap_of_mem_grid (List.mem_filter.mp hp).1, List.map_id']
  have hnodup : ((grid.filter fun p => lit p.1 p.2).map wrap).Nodup := by
    rw [hwrap]
    exact nodup_grid.filter _
  rw [ofLit, get_flipAll_of_nodup hnodup, hwrap, wrap_of_mem_grid hgrid, get_dark]
  simp [hgrid]

theorem filterMap_glyphs (row : List Bool) : (row.flatMap glyphBytes).filterMap pixel? = row := by
  induction row with
  | nil => rfl
  | cons lit rest ih =>
    rw [List.flatMap_cons, List.filterMap_append, ih]
    cases lit <;> rfl

theorem filterMap_encoding (s : Screen) : s.encoding.filterMap pixel? = s.rows.flatten := by
  have hline (row : List Bool) : (lineBytes row).filterMap pixel? = row := by
    rw [lineBytes, List.filterMap_append, filterMap_glyphs]
    exact List.append_nil row
  have hcodes : List.filterMap pixel?
      ([0x1b, 0x5b, 0x32, 0x4a] ++ [0x1b, 0x5b, 0x31, 0x3b, 0x31, 0x48] : List UInt8) = [] := by
    decide
  rw [Screen.encoding, List.filterMap_append, hcodes, List.nil_append, List.filterMap_flatMap]
  simp only [hline]
  exact List.flatMap_id'

section

variable {α : Type} {size : Nat} {blocks : List (List α)}

theorem length_flatten_blocks (hsize : ∀ block ∈ blocks, block.length = size) :
    blocks.flatten.length = size * blocks.length := by
  induction blocks with
  | nil => rfl
  | cons block rest ih =>
    rw [List.forall_mem_cons] at hsize
    rw [List.flatten_cons, List.length_append, hsize.1, ih hsize.2, List.length_cons, Nat.mul_succ,
      Nat.add_comm]

/-- What stands in a row of blocks of one size, counted block by block. -/
theorem getD_flatten_blocks (hsize : ∀ block ∈ blocks, block.length = size) {k : Nat}
    (hk : k < size) (i : Nat) (d : α) :
    blocks.flatten.getD (size * i + k) d = (blocks.getD i []).getD k d := by
  induction blocks generalizing i with
  | nil => rfl
  | cons block rest ih =>
    rw [List.forall_mem_cons] at hsize
    cases i with
    | zero =>
      rw [List.flatten_cons, Nat.mul_zero, Nat.zero_add, List.getD_append _ _ _ _ (hsize.1 ▸ hk)]
      rfl
    | succ i =>
      have hplace : size * (i + 1) + k = block.length + (size * i + k) := by
        rw [hsize.1, Nat.mul_succ]
        omega
      rw [List.flatten_cons, hplace, List.getD_append_right _ _ _ _ (Nat.le_add_right _ _),
        Nat.add_sub_cancel_left, ih hsize.2]
      rfl

end

namespace Screen

theorem length_of_mem_rows {s : Screen} : ∀ row ∈ s.rows, row.length = 64 := by
  intro row hrow
  obtain ⟨y, -, rfl⟩ := List.mem_map.mp hrow
  simp [Screen.row]

theorem length_flatten_rows (s : Screen) : s.rows.flatten.length = 2048 := by
  rw [length_flatten_blocks length_of_mem_rows, rows, List.length_map, List.length_range]
  rfl

theorem getD_flatten_rows (s : Screen) {x y : Nat} (hx : x < width) (hy : y < height) :
    s.rows.flatten.getD (64 * y + x) false = s.get x y := by
  have hrow : s.rows.getD y [] = s.row y := by
    rw [List.getD_eq_getElem?_getD, getElem?_rows hy, Option.getD_some]
  rw [getD_flatten_blocks length_of_mem_rows hx, hrow, List.getD_eq_getElem?_getD, getElem?_row hx,
    Option.getD_some]

end Screen

theorem readFrames_flatMap (screens : List Screen) :
    readFrames (screens.flatMap Screen.encoding) = screens := by
  have hpixels : (screens.flatMap Screen.encoding).filterMap pixel? =
      (screens.map fun s => s.rows.flatten).flatten := by
    rw [List.filterMap_flatMap]
    simp only [filterMap_encoding]
    rfl
  have hsize : ∀ block ∈ screens.map fun s => s.rows.flatten, block.length = 2048 := by
    intro block hblock
    obtain ⟨s, -, rfl⟩ := List.mem_map.mp hblock
    exact s.length_flatten_rows
  simp only [readFrames, hpixels]
  refine List.ext_getElem ?_ fun k hk hk' => ?_
  · rw [List.length_map, List.length_range, length_flatten_blocks hsize, List.length_map,
      Nat.mul_div_cancel_left _ (by decide)]
  · rw [List.getElem_map, List.getElem_range]
    refine Screen.ext_get fun x hx y hy => ?_
    have hplace : 64 * y + x < 2048 := by
      simp only [Screen.width, Screen.height] at hx hy
      omega
    have hblock : (screens.map fun s => s.rows.flatten).getD k [] = screens[k].rows.flatten := by
      rw [List.getD_eq_getElem?_getD, List.getElem?_map, List.getElem?_eq_getElem hk',
        Option.map_some, Option.getD_some]
    rw [Screen.get_ofLit _ hx hy, getD_flatten_blocks hsize hplace, hblock,
      Screen.getD_flatten_rows _ hx hy]

namespace Sink

/-- **Frames fill a sink up to its limit.** Frames are drawn one after the other, each of them
    whatever came of those before. A sink with a limit ends up with the first bytes of all frames
    together, and a frame goes through just when it ends within the limit; else the device is full.
    A sink without a limit whose flush fails ends up with all bytes, and no frame goes through. The
    bytes of a frame are those of its text, and the screens can be read back from the bytes of their
    frames. -/
theorem frames_fill_up_to_limit (screens : List Screen) (limit : Nat) :
    let bytes := screens.flatMap Screen.encoding
    let drawn := ({ limit := some limit } : Sink).drawAll screens
    let stuck := ({ flushFails := true } : Sink).drawAll screens
    drawn.2.taken.toList = bytes.take limit ∧
    drawn.1 = (List.range screens.length).map (fun i =>
      if ((screens.take (i + 1)).flatMap Screen.encoding).length ≤ limit then .ok ()
      else .error "device full") ∧
    stuck.2.taken.toList = bytes ∧
    stuck.1 = screens.map (fun _ => .error "flush failed") ∧
    (∀ s : Screen, s.frame.toUTF8.toList = s.encoding) ∧
    readFrames bytes = screens := by
  intro bytes drawn stuck
  have hdrawn : drawn = (offered (some limit) false []).drawAll screens := by rw [offered_nil]
  have hstuck : stuck = (offered none true []).drawAll screens := by rw [offered_nil]
  rw [hdrawn, hstuck, drawAll_offered, drawAll_offered]
  refine ⟨rfl, ?_, rfl, ?_, toList_toUTF8_frame, readFrames_flatMap screens⟩
  · simp [outcome, within]
  · simp [outcome, within, List.map_const']

end Sink

end Chip8
