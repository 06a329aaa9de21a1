import Chip8.Proofs.Decoding
import Chip8.Proofs.Execution
import Chip8.Proofs.Pixels

set_option autoImplicit false

/-! # Sprites

A sprite is drawn row by row, a row bit by bit, and each set bit flips one pixel. Taken together
that is one list of pixels (`spritePixels`), and as a sprite has no more than fifteen rows of eight,
no two pixels of the list are the same even if the sprite wraps around at an edge or at both
(`nodup_wrapped_sprite`). So drawing comes to flipping the list (`Screen.plotRows_eq`), each pixel
once, and the pixel that is looked at in the middle of the drawing is as it was before the drawing
began: the flag tells whether some pixel was lit before and is dark after. -/

namespace Chip8

/-- The single pixels that a sprite plots, its top left pixel at (`x`, `y`), row by row. -/
def spritePixels (x y : Nat) : List UInt8 → List (Nat × Nat)
  | [] => []
  | row :: rest => (Stroke.row x y row).pixels ++ spritePixels x (y + 1) rest

/-! ## The pixels of a sprite -/

section

variable {x y : Nat} {rows : List UInt8} {p : Nat × Nat}

theorem Stroke.mem_row_pixels {bits : UInt8} :
    p ∈ (Stroke.row x y bits).pixels ↔
      ∃ b < 8, bits.toNat.testBit (7 - b) = true ∧ p = (x + b, y) := by
  simp only [pixels, rowPixels, List.mem_map, List.mem_filter, List.mem_range, and_assoc, eq_comm]

theorem mem_spritePixels :
    p ∈ spritePixels x y rows ↔
      ∃ r < rows.length, ∃ b < 8,
        (rows.getD r 0).toNat.testBit (7 - b) = true ∧ p = (x + b, y + r) := by
  induction rows generalizing y with
  | nil => simp [spritePixels]
  | cons row rest ih =>
    rw [spritePixels, List.mem_append, Stroke.mem_row_pixels, ih]
    constructor
    · rintro (⟨b, hb, hbit, rfl⟩ | ⟨r, hr, b, hb, hbit, rfl⟩)
      · exact ⟨0, Nat.succ_pos _, b, hb, hbit, rfl⟩
      · exact ⟨r + 1, Nat.succ_lt_succ hr, b, hb, hbit, by rw [Nat.add_assoc, Nat.add_comm 1]⟩
    · rintro ⟨r, hr, b, hb, hbit, rfl⟩
      cases r with
      | zero => exact .inl ⟨b, hb, hbit, rfl⟩
      | succ r =>
        refine .inr ⟨r, Nat.lt_of_succ_lt_succ hr, b, hb, hbit, ?_⟩
        rw [Nat.add_assoc, Nat.add_comm 1]

/-- The pixels of a sprite are different ones. -/
theorem nodup_wrapped_sprite (h : rows.length ≤ Screen.height) :
    ((spritePixels x y rows).map wrap).Nodup := by
  induction rows generalizing y with
  | nil => exact List.nodup_nil
  | cons row rest ih =>
    rw [List.length_cons, Screen.height] at h
    rw [spritePixels, List.map_append, List.nodup_append]
    refine ⟨Stroke.nodup_wrapped_row x y row, ih (Nat.le_of_succ_le h), ?_⟩
    rintro _ hfirst _ hrest rfl
    obtain ⟨p, hp, hwrap⟩ := List.mem_map.mp hfirst
    obtain ⟨q, hq, rfl⟩ := List.mem_map.mp hrest
    obtain ⟨b, -, -, rfl⟩ := Stroke.mem_row_pixels.mp hp
    obtain ⟨r, hr, c, -, -, rfl⟩ := mem_spritePixels.mp hq
    -- the first row comes again after as many rows as the screen is high
    have hrow : y % 32 = (y + 1 + r) % 32 := (Prod.mk.inj hwrap).2
    omega

/-- Seen from the top left pixel of a sprite, with both coordinates going around, its pixels are the
    set bits of its rows. -/
theorem wrap_mem_sprite_iff (h : rows.length ≤ Screen.height) (px py : Nat) :
    let dx := (px + Screen.width - x % Screen.width) % Screen.width
    let dy := (py + Screen.height - y % Screen.height) % Screen.height
    wrap (px, py) ∈ (spritePixels x y rows).map wrap ↔
      dx < 8 ∧ dy < rows.length ∧ (rows.getD dy 0).toNat.testBit (7 - dx) = true := by
  intro dx dy
  simp only [List.mem_map, mem_spritePixels]
  constructor
  · rintro ⟨p, ⟨r, hr, b, hb, hbit, rfl⟩, hwrap⟩
    obtain ⟨hx, hy⟩ := Prod.mk.inj hwrap
    have hdx : dx = b := by
      simp only [Screen.width, dx] at hx ⊢
      omega
    have hdy : dy = r := by
      simp only [Screen.height, dy] at h hy ⊢
      omega
    rw [hdx, hdy]
    exact ⟨hb, hr, hbit⟩
  · rintro ⟨hb, hr, hbit⟩
    refine ⟨_, ⟨dy, hr, dx, hb, hbit, rfl⟩, Prod.ext ?_ ?_⟩
    · simp only [wrap, Screen.width, dx]
      omega
    · simp only [wrap, Screen.height, dy]
      omega

end

namespace Screen

variable {s : Screen}

/-! ## Flipping different pixels -/

theorem get_flipAll_of_nodup {pixels : List (Nat × Nat)} (h : (pixels.map wrap).Nodup)
    (x y : Nat) :
    (s.flipAll pixels).get x y = (s.get x y ^^ decide (wrap (x, y) ∈ pixels.map wrap)) := by
  rw [get_flipAll, hits, h.count]
  congr 1
  by_cases hmem : wrap (x, y) ∈ pixels.map wrap <;> simp [hmem]

theorem exists_on_screen_iff {t : Screen} :
    (∃ x y, s.get x y = true ∧ t.get x y = false) ↔
      ∃ x < width, ∃ y < height, s.get x y = true ∧ t.get x y = false := by
  constructor
  · rintro ⟨x, y, hlit, hdark⟩
    refine ⟨x % width, Nat.mod_lt _ (by decide), y % height, Nat.mod_lt _ (by decide), ?_⟩
    rw [get_mod, get_mod]
    exact ⟨hlit, hdark⟩
  · rintro ⟨x, -, y, -, h⟩
    exact ⟨x, y, h⟩

/-! ## Rows -/

/-- Different pixels of a sprite: each of them is looked at before any other flip could have changed
    it. -/
theorem plotRows_eq {x y : Nat} {rows : List UInt8}
    (h : ((spritePixels x y rows).map wrap).Nodup) :
    s.plotRows x y rows =
      (.ok ((spritePixels x y rows).any fun p => s.get p.1 p.2),
        s.flipAll (spritePixels x y rows)) := by
  induction rows generalizing s y with
  | nil => rfl
  | cons row rest ih =>
    rw [spritePixels, List.map_append, List.nodup_append'] at h
    obtain ⟨-, hrest, hdisjoint⟩ := h
    have hsame := s.any_get_flipAll hdisjoint
    rw [plotRows, plotRow_eq, Plotted.andThen, ih hrest, hsame, spritePixels, List.any_append,
      flipAll_append]

end Screen

/-! ## Cycles that draw -/

namespace Machine

/-- The bytes from the index register on that a sprite of `n` rows is made of. -/
def spriteRows (m : Machine) (n : Fin 16) : List UInt8 :=
  (List.range n.val).map fun k => m.memory.get (m.registers.i.toNat + k)

/-- The single pixels that a sprite of `n` rows at (VX, VY) plots. -/
def sprite (m : Machine) (x y n : Fin 16) : List (Nat × Nat) :=
  spritePixels (m.v x).toNat (m.v y).toNat (m.spriteRows n)

variable {m : Machine} {x y n : Fin 16}

theorem length_spriteRows (m : Machine) (n : Fin 16) : (m.spriteRows n).length = n.val := by
  rw [spriteRows, List.length_map, List.length_range]

theorem getD_spriteRows {k : Nat} (hk : k < n.val) :
    (m.spriteRows n).getD k 0 = m.memory.get (m.registers.i.toNat + k) := by
  simp [spriteRows, hk]

theorem length_spriteRows_le (m : Machine) (n : Fin 16) :
    (m.spriteRows n).length ≤ Screen.height := by
  rw [length_spriteRows]
  exact Nat.le_trans (Nat.le_of_lt n.isLt) (by decide)

theorem nodup_sprite (m : Machine) (x y n : Fin 16) : ((m.sprite x y n).map wrap).Nodup :=
  nodup_wrapped_sprite (m.length_spriteRows_le n)

/-- Drawing flips the pixels of the sprite, and the flag tells whether one of them was lit. -/
theorem draw_eq (hi : Memory.overrun m.registers.i n.val = none) :
    m.draw x y n =
      (.ok .next,
        { m with
          screen := m.screen.flipAll (m.sprite x y n),
          registers := m.registers.setFlag
            ((m.sprite x y n).any fun p => m.screen.get p.1 p.2) }) := by
  have hread : m.memory.read m.registers.i n.val = .ok (m.spriteRows n) := by
    rw [Memory.read_eq, hi]
    rfl
  simp only [draw, hread, Screen.plotRows_eq (m.nodup_sprite x y n), sprite]

theorem step_drawWord (keys : Keypad) (hrun : m.activity = .running)
    (hfetch : m.memory.word m.registers.pc = .ok (Word.ofDigits 0xd x y n))
    (hi : Memory.overrun m.registers.i n.val = none) :
    (m.step keys).fault = none ∧
      (m.step keys).machine = (m.draw x y n).2.goto (m.registers.pc + 2) := by
  have hexec : m.execute keys (Instruction.decode (Word.ofDigits 0xd x y n)) = m.draw x y n :=
    congrArg (m.execute keys) (Instruction.decode_encode (i := .draw x y n) trivial)
  rw [draw_eq hi] at hexec ⊢
  exact step_of_execute ⟨hrun, hfetch⟩ hexec

/-- **A sprite is drawn exactly.** A cycle that draws a sprite of `n` rows at (VX, VY) succeeds if
    the rows lie within memory. A pixel is flipped if and only if, seen from the top left pixel with
    both coordinates going around, it lies on a set bit of the sprite. The flag is one or zero, and
    it is one if and only if some pixel was lit before and is dark after. Other than that the
    program counter moves on by two and nothing changes. -/
theorem draw_flips_sprite_exactly (m : Machine) (keys : Keypad) (x y n : Fin 16)
    (hrun : m.activity = .running)
    (hfetch : m.memory.word m.registers.pc = .ok (Word.ofDigits 0xd x y n))
    (hi : m.registers.i.toNat + n.val ≤ Memory.size) :
    let x0 := (m.v x).toNat % Screen.width
    let y0 := (m.v y).toNat % Screen.height
    let s := m.step keys
    s.fault = none ∧
    (∀ px py,
      let dx := (px + Screen.width - x0) % Screen.width
      let dy := (py + Screen.height - y0) % Screen.height
      s.machine.screen.get px py = (m.screen.get px py ^^ decide (dx < 8 ∧ dy < n.val ∧
        (m.memory.get (m.registers.i.toNat + dy)).toNat.testBit (7 - dx) = true))) ∧
    (s.machine.v 0xf = 0 ∨ s.machine.v 0xf = 1) ∧
    (s.machine.v 0xf = 1 ↔ ∃ px < Screen.width, ∃ py < Screen.height,
      m.screen.get px py = true ∧ s.machine.screen.get px py = false) ∧
    s.machine = { m with
      screen := s.machine.screen,
      registers := { m.registers with
        v := m.registers.v.put 0xf (s.machine.v 0xf), pc := m.registers.pc + 2 } } ∧
    s.machine.registers.pc.toNat = m.registers.pc.toNat + 2 := by
  intro x0 y0 s
  have hover : Memory.overrun m.registers.i n.val = none := if_pos hi
  obtain ⟨hfault, hmachine⟩ := step_drawWord keys hrun hfetch hover
  rw [draw_eq hover] at hmachine
  have hscreen : s.machine.screen = m.screen.flipAll (m.sprite x y n) := congrArg screen hmachine
  have hflag : s.machine.v 0xf =
      if ((m.sprite x y n).any fun p => m.screen.get p.1 p.2) = true then 1 else 0 := by
    rw [hmachine]
    exact Registers.v_setV _ _ _ _
  have hlit := Screen.any_lit_iff (s := m.screen) (m.nodup_sprite x y n)
  have hpc : m.registers.pc.toNat + 2 ≤ 4096 := by
    by_contra hbeyond
    rw [Memory.word_eq, Memory.overrun, if_neg hbeyond] at hfetch
    cases hfetch
  refine ⟨hfault, ?_, ?_, ?_, ?_, ?_⟩
  · intro px py dx dy
    rw [hscreen, Screen.get_flipAll_of_nodup (m.nodup_sprite x y n)]
    congr 1
    refine decide_eq_decide.mpr ((wrap_mem_sprite_iff (m.length_spriteRows_le n) px py).trans ?_)
    rw [length_spriteRows]
    exact and_congr_right fun _ => and_congr_right fun hdy => by rw [getD_spriteRows hdy]
  · rw [hflag]
    split
    · exact .inr rfl
    · exact .inl rfl
  · rw [hscreen, ← Screen.exists_on_screen_iff, ← hlit, hflag]
    split
    · next h => simp [h]
    · next h => simp [h]
  · rw [hflag, hscreen, hmachine]
    rfl
  · rw [hmachine]
    show (m.registers.pc + 2).toNat = _
    have htwo : (2 : UInt16).toNat = 2 := rfl
    rw [UInt16.toNat_add, htwo]
    omega

/-- A sprite of two rows that wraps around at the right edge and at the bottom. VF is one of its
    coordinates, and its last pixel in the first row is lit before. -/
theorem cornerSprite_puts_out_pixel :
    let registers := (Registers.reset.setV 0xf 62).setV 0xe 63
    let m := { Machine.fresh {} 0 with
      memory := Memory.fresh.store 0x200 [0xdf, 0xe2, 0x81, 0xff],
      registers := { registers with i := 0x202 },
      screen := Screen.dark.flip 5 31 }
    m.activity = .running ∧ m.memory.word m.registers.pc = .ok (Word.ofDigits 0xd 0xf 0xe 2) ∧
    m.registers.i.toNat + 2 ≤ Memory.size ∧
    (m.step .idle).fault = none ∧ (m.step .idle).machine.v 0xf = 1 ∧
    (m.step .idle).machine.screen.get 62 31 = true ∧
    (m.step .idle).machine.screen.get 5 31 = false ∧
    (m.step .idle).machine.screen.get 5 0 = true ∧
    (m.step .idle).machine.screen.get 6 0 = false := by
  intro registers m
  have hfetch : m.memory.word m.registers.pc = .ok (Word.ofDigits 0xd 0xf 0xe 2) := by
    decide +kernel
  obtain ⟨hfault, hpixel, -, hflag, -⟩ :=
    draw_flips_sprite_exactly m .idle 0xf 0xe 2 rfl hfetch (by decide)
  have hdark : (m.step .idle).machine.screen.get 5 31 = false :=
    (hpixel 5 31).trans (by decide +kernel)
  exact ⟨rfl, hfetch, by decide, hfault,
    hflag.mpr ⟨5, by decide, 31, by decide, by decide +kernel, hdark⟩,
    (hpixel 62 31).trans (by decide +kernel), hdark, (hpixel 5 0).trans (by decide +kernel),
    (hpixel 6 0).trans (by decide +kernel)⟩

end Machine

end Chip8
