import Chip8.Screen.Basic
import Mathlib.Data.List.DropRight
import Mathlib.Data.List.Nodup

set_option autoImplicit false

/-! # A screen is a set of pixels

Whatever has been plotted on a screen, one pixel or a row of eight at a time, comes to a list of
single pixels that have been flipped one after the other (`Screen.apply_eq_flipAll`). Of such a list
only the numbers of flips matter, pixel by pixel, and of those only whether they are odd
(`Screen.get_flipAll`): not the order, and not what has been flipped twice. Rows need care in one
place only. A row answers whether a pixel was lit when its turn came, which is the same as whether
it was lit before the row, because the columns of a row are different ones even where the row wraps
around (`Stroke.nodup_wrapped_row`). -/

namespace Chip8

/-- Something that is done with a screen. -/
inductive Stroke where
  | clear
  | plot (x y : Nat)
  /-- A row of eight pixels, given as bits with the leftmost high. -/
  | row (x y : Nat) (bits : UInt8)
  deriving DecidableEq

/-- The pixel of the screen that a pair of coordinates names. -/
def wrap (p : Nat × Nat) : Nat × Nat := (p.1 % Screen.width, p.2 % Screen.height)

/-- How many of the pixels are the one at (`x`, `y`). -/
def hits (pixels : List (Nat × Nat)) (x y : Nat) : Nat := (pixels.map wrap).count (wrap (x, y))

namespace Stroke

/-- The pixels of a row that are set, in the listed columns of the row, counted from the left. -/
def rowPixels (x y : Nat) (bits : UInt8) (columns : List Nat) : List (Nat × Nat) :=
  (columns.filter fun b => bits.toNat.testBit (7 - b)).map fun b => (x + b, y)

/-- The single pixels that a stroke plots. -/
def pixels : Stroke → List (Nat × Nat)
  | .clear => []
  | .plot x y => [(x, y)]
  | .row x y bits => rowPixels x y bits (List.range 8)

/-- The single pixels that strokes have plotted since the screen was cleared last. -/
def sinceClear (strokes : List Stroke) : List (Nat × Nat) :=
  (strokes.rtakeWhile (· ≠ .clear)).flatMap pixels

/-- The columns of a row are different ones. -/
theorem nodup_wrapped_row (x y : Nat) (bits : UInt8) :
    ((rowPixels x y bits (List.range 8)).map wrap).Nodup := by
  rw [rowPixels, List.map_map]
  refine List.Nodup.map_on (fun b hb c hc hbc => ?_) (List.nodup_range.filter _)
  have hb8 : b < 8 := List.mem_range.mp (List.mem_filter.mp hb).1
  have hc8 : c < 8 := List.mem_range.mp (List.mem_filter.mp hc).1
  have hcolumn : (x + b) % 64 = (x + c) % 64 := (Prod.mk.inj hbc).1
  omega

end Stroke

namespace Screen

/-- The screen after a stroke. -/
def apply (s : Screen) : Stroke → Screen
  | .clear => dark
  | .plot x y => (s.plot x y).2
  | .row x y bits => (s.plotRow x y bits).2

/-- The screen after strokes, first one first. -/
def after (s : Screen) (strokes : List Stroke) : Screen := strokes.foldl apply s

/-- The screen with the listed pixels flipped one after the other. -/
def flipAll (s : Screen) (pixels : List (Nat × Nat)) : Screen :=
  pixels.foldl (fun s p => s.flip p.1 p.2) s

variable {s : Screen}

/-! ## Flipping -/

theorem get_of_wrap_eq (s : Screen) {p q : Nat × Nat} (h : wrap p = wrap q) :
    s.get p.1 p.2 = s.get q.1 q.2 := by
  obtain ⟨hx, hy⟩ := Prod.mk.inj h
  rw [← s.get_mod p.1, ← s.get_mod q.1, hx, hy]

theorem get_flip_wrap (s : Screen) (p q : Nat × Nat) :
    (s.flip p.1 p.2).get q.1 q.2 = (s.get q.1 q.2 ^^ decide (wrap p = wrap q)) := by
  rw [get_flip]
  simp only [wrap, Prod.mk.injEq]

/-- A pixel is changed by flips of it if there is an odd number of them. -/
theorem get_flipAll (s : Screen) (pixels : List (Nat × Nat)) (x y : Nat) :
    (s.flipAll pixels).get x y = (s.get x y ^^ decide (hits pixels x y % 2 = 1)) := by
  induction pixels generalizing s with
  | nil => simp [flipAll, hits]
  | cons p rest ih =>
    have hfirst := s.get_flip_wrap p (x, y)
    have hrest : ((s.flip p.1 p.2).flipAll rest).get x y = _ := ih (s.flip p.1 p.2)
    have hhits : hits (p :: rest) x y = hits rest x y + if wrap p = wrap (x, y) then 1 else 0 := by
      simp only [hits, List.map_cons, List.count_cons, beq_iff_eq]
    show ((s.flip p.1 p.2).flipAll rest).get x y = _
    rw [hrest, hfirst, hhits]
    by_cases hp : wrap p = wrap (x, y)
    · -- one more flip makes an odd number even and an even number odd
      rcases Nat.mod_two_eq_zero_or_one (hits rest x y) with heven | hodd
      · simp [hp, Nat.add_mod, heven]
      · simp [hp, Nat.add_mod, hodd]
    · simp [hp]

theorem flipAll_perm {pixels pixels' : List (Nat × Nat)} (h : pixels.Perm pixels') :
    s.flipAll pixels = s.flipAll pixels' := by
  refine ext_get fun x _ y _ => ?_
  rw [get_flipAll, get_flipAll, hits, hits, (h.map wrap).count_eq]

theorem flipAll_singleton (s : Screen) (x y : Nat) : s.flipAll [(x, y)] = s.flip x y := rfl

theorem flipAll_append (s : Screen) (pixels more : List (Nat × Nat)) :
    s.flipAll (pixels ++ more) = (s.flipAll pixels).flipAll more :=
  List.foldl_append

theorem flipAll_flipAll (s : Screen) (pixels : List (Nat × Nat)) :
    (s.flipAll pixels).flipAll pixels = s := by
  refine ext_get fun x _ y _ => ?_
  rw [get_flipAll, get_flipAll, Bool.xor_assoc, Bool.xor_self, Bool.xor_false]

/-- Whether one of some pixels is lit does not depend on flips of others. -/
theorem any_get_flipAll (s : Screen) {others pixels : List (Nat × Nat)}
    (h : (others.map wrap).Disjoint (pixels.map wrap)) :
    (pixels.any fun p => (s.flipAll others).get p.1 p.2) = pixels.any fun p => s.get p.1 p.2 := by
  rw [Bool.eq_iff_iff, List.any_eq_true, List.any_eq_true]
  refine exists_congr fun p => and_congr_right fun hp => ?_
  have hnone : hits others p.1 p.2 = 0 :=
    List.count_eq_zero_of_not_mem fun hmem => h hmem (List.mem_map_of_mem hp)
  rw [get_flipAll, hnone, decide_eq_false (by decide), Bool.xor_false]

/-! ## Rows -/

/-- Different pixels of a row: each of them is looked at before any other flip could have changed
    it. -/
theorem plotBits_eq (x y : Nat) (bits : UInt8) {columns : List Nat}
    (h : ((Stroke.rowPixels x y bits columns).map wrap).Nodup) :
    s.plotBits x y bits columns =
      (.ok ((Stroke.rowPixels x y bits columns).any fun p => s.get p.1 p.2),
        s.flipAll (Stroke.rowPixels x y bits columns)) := by
  induction columns generalizing s with
  | nil => rfl
  | cons k rest ih =>
    have hbit : bits.toBitVec.getLsbD (7 - k) = bits.toNat.testBit (7 - k) := rfl
    rw [plotBits, hbit]
    by_cases hset : bits.toNat.testBit (7 - k) = true
    · have hpixels : Stroke.rowPixels x y bits (k :: rest)
          = (x + k, y) :: Stroke.rowPixels x y bits rest := by
        simp [Stroke.rowPixels, hset]
      rw [hpixels, List.map_cons, List.nodup_cons] at h
      have hapart : ([(x + k, y)].map wrap).Disjoint ((Stroke.rowPixels x y bits rest).map wrap) :=
        List.singleton_disjoint.mpr h.1
      have hsame := s.any_get_flipAll hapart
      rw [flipAll_singleton] at hsame
      rw [if_pos hset, plot_eq, Plotted.andThen, ih h.2, hsame, hpixels]
      rfl
    · have hpixels : Stroke.rowPixels x y bits (k :: rest) = Stroke.rowPixels x y bits rest := by
        simp [Stroke.rowPixels, hset]
      rw [if_neg hset, hpixels]
      exact ih (hpixels ▸ h)

theorem plotRow_eq (s : Screen) (x y : Nat) (bits : UInt8) :
    s.plotRow x y bits =
      (.ok ((Stroke.row x y bits).pixels.any fun p => s.get p.1 p.2),
        s.flipAll (Stroke.row x y bits).pixels) :=
  plotBits_eq x y bits (Stroke.nodup_wrapped_row x y bits)

/-- Of different pixels that are flipped, one goes dark if and only if one was lit. -/
theorem any_lit_iff {pixels : List (Nat × Nat)} (h : (pixels.map wrap).Nodup) :
    (pixels.any fun p => s.get p.1 p.2) = true ↔
      ∃ x y, s.get x y = true ∧ (s.flipAll pixels).get x y = false := by
  rw [List.any_eq_true]
  constructor
  · rintro ⟨p, hp, hlit⟩
    have honce : hits pixels p.1 p.2 = 1 := List.count_eq_one_of_mem h (List.mem_map_of_mem hp)
    refine ⟨p.1, p.2, hlit, ?_⟩
    rw [get_flipAll, honce, hlit]
    rfl
  · rintro ⟨x, y, hlit, hdark⟩
    have hmem : wrap (x, y) ∈ pixels.map wrap := by
      refine List.count_pos_iff.mp (Nat.pos_of_ne_zero fun hnone => ?_)
      rw [get_flipAll, hits, hnone, hlit] at hdark
      cases hdark
    obtain ⟨p, hp, hwrap⟩ := List.mem_map.mp hmem
    exact ⟨p, hp, (s.get_of_wrap_eq hwrap).trans hlit⟩

/-! ## Strokes -/

theorem apply_eq_flipAll (s : Screen) {stroke : Stroke} (h : stroke ≠ .clear) :
    s.apply stroke = s.flipAll stroke.pixels := by
  cases stroke with
  | clear => exact absurd rfl h
  | plot x y => rw [apply, plot_eq]; rfl
  | row x y bits => rw [apply, plotRow_eq]

theorem after_append (s : Screen) (strokes more : List Stroke) :
    s.after (strokes ++ more) = (s.after strokes).after more :=
  List.foldl_append

theorem after_eq_flipAll (s : Screen) {strokes : List Stroke} (h : .clear ∉ strokes) :
    s.after strokes = s.flipAll (strokes.flatMap Stroke.pixels) := by
  induction strokes generalizing s with
  | nil => rfl
  | cons stroke rest ih =>
    rw [List.mem_cons, not_or] at h
    obtain ⟨hstroke, hrest⟩ := h
    rw [List.flatMap_cons, flipAll_append, ← s.apply_eq_flipAll (Ne.symm hstroke)]
    exact ih _ hrest

theorem after_dark_eq (strokes : List Stroke) :
    dark.after strokes = dark.flipAll (Stroke.sinceClear strokes) := by
  induction strokes using List.reverseRecOn with
  | nil => rfl
  | append_singleton strokes stroke ih =>
    rw [after_append]
    show (dark.after strokes).apply stroke = _
    by_cases hclear : stroke = .clear
    · rw [hclear, Stroke.sinceClear, List.rtakeWhile_concat_neg _ _ _ (by simp)]
      rfl
    · rw [apply_eq_flipAll _ hclear, ih, ← flipAll_append, Stroke.sinceClear, Stroke.sinceClear,
        List.rtakeWhile_concat_pos _ _ _ (by simpa using hclear), List.flatMap_append,
        List.flatMap_singleton]

/-- **A screen is a set of pixels.** Whatever strokes there have been on a dark screen, a pixel is
    lit if and only if it has been plotted an odd number of times since the screen was cleared last,
    where each set bit of a row is a pixel plotted. No stroke fails. A pixel answers whether it was
    lit just before; a row answers whether some pixel was lit before and is dark after. So what
    comes of strokes that do not clear does not depend on their order, and if they are repeated, the
    screen is as it was. -/
theorem lit_iff_plotted_odd (strokes : List Stroke) :
    let s := dark.after strokes
    (∀ x y, s.get x y = true ↔ hits (Stroke.sinceClear strokes) x y % 2 = 1) ∧
    (∀ x y, s.plot x y = (.ok (s.get x y), dark.after (strokes ++ [.plot x y]))) ∧
    (∀ x y bits, ∃ hit,
      s.plotRow x y bits = (.ok hit, dark.after (strokes ++ [.row x y bits])) ∧
      (hit = true ↔ ∃ a b, s.get a b = true ∧
        (dark.after (strokes ++ [.row x y bits])).get a b = false)) ∧
    (∀ more more', .clear ∉ more → more.Perm more' →
      dark.after (strokes ++ more) = dark.after (strokes ++ more')) ∧
    (∀ more, .clear ∉ more → dark.after (strokes ++ more ++ more) = s) := by
  intro s
  have hnext (stroke : Stroke) : dark.after (strokes ++ [stroke]) = s.apply stroke :=
    dark.after_append strokes [stroke]
  refine ⟨?_, ?_, ?_, ?_, ?_⟩
  · intro x y
    show (dark.after strokes).get x y = true ↔ _
    rw [after_dark_eq, get_flipAll, get_dark, Bool.false_xor, decide_eq_true_iff]
  · intro x y
    rw [hnext, apply, plot_eq]
  · intro x y bits
    have hdark := any_lit_iff (s := s) (Stroke.nodup_wrapped_row x y bits)
    rw [hnext, apply, plotRow_eq]
    exact ⟨_, rfl, hdark⟩
  · intro more more' hclear hperm
    have hclear' : .clear ∉ more' := fun h => hclear (hperm.mem_iff.mpr h)
    rw [after_append, after_append, after_eq_flipAll _ hclear, after_eq_flipAll _ hclear']
    exact flipAll_perm (hperm.flatMap_right _)
  · intro more hclear
    rw [after_append, after_append, after_eq_flipAll _ hclear, after_eq_flipAll _ hclear]
    exact flipAll_flipAll _ _

/-- A row that wraps around at the right edge and a pixel that lies on it below the bottom edge, on
    a screen that has been cleared in between. -/
theorem wrapped_row_and_pixel :
    let strokes : List Stroke := [.plot 5 5, .clear, .row 60 31 0xf1]
    let more : List Stroke := [.plot 67 63, .row 62 31 0x81]
    .clear ∉ more ∧ more.Perm more.reverse ∧
    (dark.after strokes).get 3 31 = true ∧ (dark.after strokes).get 5 5 = false ∧
    dark.after (strokes ++ more) = dark.after (strokes ++ more.reverse) ∧
    dark.after (strokes ++ more ++ more) = dark.after strokes := by
  intro strokes more
  have hclear : .clear ∉ more := by decide
  have hperm : more.Perm more.reverse := (List.reverse_perm more).symm
  obtain ⟨hlit, -, -, horder, htwice⟩ := lit_iff_plotted_odd strokes
  refine ⟨hclear, hperm, (hlit 3 31).mpr (by decide), ?_, horder _ _ hclear hperm,
    htwice more hclear⟩
  exact Bool.eq_false_iff.mpr fun h => absurd ((hlit 5 5).mp h) (by decide)

end Screen

end Chip8
