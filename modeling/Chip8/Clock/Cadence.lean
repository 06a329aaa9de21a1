set_option autoImplicit false

/-! # Cadences

A cadence fires at a fixed rate when it is fed with elapsed time. It takes whole periods off the
time gathered so far, one firing each, and keeps what is left for the next feeding, so no time is
lost however the feeding is cut up. Times are whole nanoseconds. -/

namespace Chip8

/-- A second, in nanoseconds. -/
def second : Nat := 1000000000

/-- A fixed-rate trigger. -/
structure Cadence where
  period : Nat
  /-- The time gathered since the last firing. -/
  gathered : Nat := 0
  /-- Two firings never coincide. -/
  period_pos : 0 < period

namespace Cadence

/-- The cadence of so many firings a second, its period rounded down; a rate of zero counts as one.
    Rates above one firing a nanosecond are not modelled as they are: their period would be zero,
    and with that `drain` would never end. They count as one firing a nanosecond here, so that every
    cadence has a period. What is proved about rates is about those up to `second`. -/
def ofHz (hz : Nat) : Cadence where
  period := max 1 (second / max hz 1)
  period_pos := by omega

/-- Takes whole periods off `gathered`: how many there were, added to `fired`, and what is left. -/
def drain (period gathered fired : Nat) (h : 0 < period) : Nat × Nat :=
  if period ≤ gathered then drain period (gathered - period) (fired + 1) h else (fired, gathered)
termination_by gathered
decreasing_by omega

/-- Taking whole periods off is division with remainder. -/
theorem drain_eq (period gathered fired : Nat) (h : 0 < period) :
    drain period gathered fired h = (fired + gathered / period, gathered % period) := by
  induction gathered using Nat.strongRecOn generalizing fired with
  | ind gathered ih =>
    unfold drain
    split
    · next hle =>
      rw [ih (gathered - period) (by omega), Nat.div_eq gathered period, if_pos ⟨h, hle⟩,
        Nat.mod_eq_sub_mod hle]
      simp only [Prod.mk.injEq, and_true]
      omega
    · next hlt =>
      have hlt' : gathered < period := by omega
      rw [Nat.div_eq_of_lt hlt', Nat.mod_eq_of_lt hlt', Nat.add_zero]

/-- Feeds the cadence with elapsed time: how often it fires, and the cadence afterwards. -/
def feed (c : Cadence) (elapsed : Nat) : Nat × Cadence :=
  let drained := drain c.period (c.gathered + elapsed) 0 c.period_pos
  (drained.1, { c with gathered := drained.2 })

def remaining (c : Cadence) : Nat := c.period - c.gathered

theorem period_feed (c : Cadence) (elapsed : Nat) : (c.feed elapsed).2.period = c.period := rfl

theorem gathered_feed_lt (c : Cadence) (elapsed : Nat) :
    (c.feed elapsed).2.gathered < c.period := by
  simp only [feed, drain_eq]
  exact Nat.mod_lt _ c.period_pos

end Cadence

end Chip8
