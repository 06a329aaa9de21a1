import Chip8.Proofs.Pacing
import Mathlib.Algebra.GroupWithZero.Nat
import Mathlib.Order.Bounds.Basic

set_option autoImplicit false

/-! # Feeding a cadence

A cadence divides by subtracting: it takes periods off one by one and counts them in 32 bits. As
long as the count fits, the loop comes to its end after one turn for each firing
(`drainCounted_eq`). What it leaves is less than a period, and a cadence that has lost nothing and
carries less than a period is determined by the time that it has been fed with
(`Tracks.eq_of_span`). So it does not matter how that time was cut up (`feeds_eq_feed_sum`), and
what remains until the next firing is exactly what a feeding must last to fire. -/

namespace Chip8.Cadence

/-! ## The loop with its counter -/

/-- The loop that takes periods off, with the firings counted in 32 bits. It has no result if it is
    broken off after so many turns, or if the counter runs over. -/
def drainCounted (period : Nat) :
    (turns gathered : Nat) → (fired : UInt32) → Option (UInt32 × Nat)
  | 0, _, _ => none
  | turns + 1, gathered, fired =>
    if period ≤ gathered then
      if fired.toNat + 1 < UInt32.size then
        drainCounted period turns (gathered - period) (fired + 1)
      else none
    else some (fired, gathered)

/-- The loop needs a turn for each firing and one more to see that it is done. -/
theorem drainCounted_eq {period : Nat} (h : 0 < period) (turns gathered : Nat) (fired : UInt32)
    (hfit : fired.toNat + gathered / period < UInt32.size) :
    (drainCounted period turns gathered fired).map (fun (count, left) => (count.toNat, left)) =
      if gathered / period < turns then some (fired.toNat + gathered / period, gathered % period)
      else none := by
  induction turns generalizing gathered fired with
  | zero => rfl
  | succ turns ih =>
    unfold drainCounted
    by_cases hle : period ≤ gathered
    · have hdiv : gathered / period = (gathered - period) / period + 1 := Nat.div_eq_sub_div h hle
      -- there is room for this firing, since there is for it and those that follow
      have hnext : fired.toNat + 1 < UInt32.size :=
        (Nat.add_le_add_left (hdiv ▸ Nat.le_add_left 1 _) _).trans_lt hfit
      have hcount : (fired + 1).toNat = fired.toNat + 1 := by
        rw [UInt32.toNat_add, UInt32.toNat_one]
        exact Nat.mod_eq_of_lt hnext
      have hrest : (fired + 1).toNat + (gathered - period) / period < UInt32.size := by omega
      rw [if_pos hle, if_pos hnext, ih _ _ hrest, hcount, hdiv, Nat.mod_eq_sub_mod hle,
        Nat.add_assoc, Nat.add_comm 1]
      simp only [Nat.add_lt_add_iff_right]
    · have hlt : gathered < period := Nat.not_le.mp hle
      simp [hle, Nat.div_eq_of_lt hlt, Nat.mod_eq_of_lt hlt]

/-! ## One feeding after the other -/

/-- Feeds the cadence with some spans of time, first one first: how often it fires in all, and the
    cadence afterwards. -/
def feeds (c : Cadence) : List Nat → Nat × Cadence
  | [] => (0, c)
  | elapsed :: rest =>
    ((c.feed elapsed).1 + ((c.feed elapsed).2.feeds rest).1, ((c.feed elapsed).2.feeds rest).2)

namespace Tracks

variable {c c' : Cadence} {period fired fired' span : Nat}

theorem feeds (h : c.Tracks period fired span) (spans : List Nat) :
    (c.feeds spans).2.Tracks period (fired + (c.feeds spans).1) (span + spans.sum) := by
  induction spans generalizing c fired span with
  | nil => exact h
  | cons elapsed rest ih =>
    have hrest := ih (h.feed elapsed)
    rw [Nat.add_assoc, Nat.add_assoc] at hrest
    rw [List.sum_cons]
    exact hrest

/-- What is carried is what whole periods leave of the span. -/
theorem gathered_eq (h : c.Tracks period fired span) : c.gathered = span % period := by
  rw [← h.conserved, Nat.mul_add_mod_self_right, Nat.mod_eq_of_lt h.gathered_lt]

/-- The span determines how often a cadence has fired and what it carries. -/
theorem eq_of_span (h : c.Tracks period fired span) (h' : c'.Tracks period fired' span) :
    fired = fired' ∧ c = c' := by
  have hperiod : c.period = c'.period := h.period_eq.trans h'.period_eq.symm
  have hgathered : c.gathered = c'.gathered := h.gathered_eq.trans h'.gathered_eq.symm
  refine ⟨h.fired_eq.trans h'.fired_eq.symm, ?_⟩
  cases c
  cases c'
  cases hperiod
  cases hgathered
  rfl

/-- Feeding spans one by one is feeding their sum. -/
theorem feeds_eq_feed_sum (h : c.Tracks period fired span) (spans : List Nat) :
    c.feeds spans = c.feed spans.sum := by
  obtain ⟨hfired, hcadence⟩ := (h.feeds spans).eq_of_span (h.feed spans.sum)
  exact Prod.ext (Nat.add_left_cancel hfired) hcadence

theorem remaining_pos (h : c.Tracks period fired span) : 0 < c.remaining := by
  have hperiod := h.gathered_add_remaining
  have hlt := h.gathered_lt
  omega

/-- What remains is the shortest feeding that fires. -/
theorem isLeast_remaining (h : c.Tracks period fired span) :
    IsLeast {elapsed | 0 < (c.feed elapsed).1} c.remaining := by
  have hfires : {elapsed | 0 < (c.feed elapsed).1} = Set.Ici c.remaining :=
    Set.ext fun elapsed => h.fires_iff elapsed
  rw [hfires]
  exact isLeast_Ici

end Tracks

/-- A period is at most a second, so a count that fits comes from a time whose seconds fit 64
    bits. -/
theorem lt_of_fits {hz time : Nat} (hfit : time / (second / max hz 1) < UInt32.size)
    (hpos : 0 < second / max hz 1) : time < UInt64.size * second := by
  have hperiod : second / max hz 1 ≤ second := Nat.div_le_self _ _
  calc time < UInt32.size * (second / max hz 1) := (Nat.div_lt_iff_lt_mul hpos).mp hfit
    _ ≤ UInt64.size * second := Nat.mul_le_mul (by decide) hperiod

/-! ## The cadences that there are -/

/-- **Feeding is division.** Take the cadence of a rate up to one firing a nanosecond, after any
    feedings. Fed with a span whose firings can be counted in 32 bits, it has a loop to do that
    comes to its end, after a turn for each firing and one more; the firings are the time gathered
    divided by the period, and the remainder is left. Spans that are fed one by one fire as often
    in all as their sum and leave the same cadence, so their order and where they were cut makes no
    difference. What remains is at least a nanosecond and at most a period, and it is the shortest
    feeding that fires. -/
theorem feeding_is_division {hz : Nat} (hrate : hz ≤ second) (past : List Nat) :
    let c := ((ofHz hz).feeds past).2
    c.period = second / max hz 1 ∧
    (∀ elapsed, (c.gathered + elapsed) / c.period < UInt32.size →
      c.gathered + elapsed < UInt64.size * second ∧
      (∀ turns, (drainCounted c.period turns (c.gathered + elapsed) 0).map
          (fun (count, left) => (count.toNat, left)) =
        if (c.feed elapsed).1 < turns then
          some ((c.feed elapsed).1, (c.feed elapsed).2.gathered)
        else none) ∧
      (c.feed elapsed).1 = (c.gathered + elapsed) / c.period ∧
      (c.feed elapsed).2.gathered = (c.gathered + elapsed) % c.period ∧
      (c.feed elapsed).2.period = c.period) ∧
    (∀ spans, c.feeds spans = c.feed spans.sum) ∧
    (∀ spans spans', spans.sum = spans'.sum → c.feeds spans = c.feeds spans') ∧
    1 ≤ c.remaining ∧ c.remaining ≤ c.period ∧
    IsLeast {elapsed | 0 < (c.feed elapsed).1} c.remaining := by
  intro c
  have htracks := (Tracks.ofHz hrate).feeds past
  have hperiod : c.period = second / max hz 1 := htracks.period_eq
  have hcarried : c.gathered + c.remaining = c.period :=
    htracks.gathered_add_remaining.trans hperiod.symm
  refine ⟨hperiod, fun elapsed hfit => ⟨?_, fun turns => ?_, c.fired_feed elapsed,
    c.gathered_feed elapsed, c.period_feed elapsed⟩, htracks.feeds_eq_feed_sum,
    fun spans spans' hsum => ?_, htracks.remaining_pos, ?_, htracks.isLeast_remaining⟩
  · rw [hperiod] at hfit
    exact lt_of_fits hfit (hperiod ▸ c.period_pos)
  · rw [c.fired_feed, c.gathered_feed, drainCounted_eq c.period_pos turns _ 0 (by simpa using hfit)]
    simp
  · rw [htracks.feeds_eq_feed_sum, htracks.feeds_eq_feed_sum, hsum]
  · rw [← hcarried]
    exact Nat.le_add_left _ _

/-- Ten milliseconds are the period at a hundred firings a second: after four and seven of them
    there are nine left, and 39 more, in one piece or two, fire four times. -/
theorem hundredHz_divides :
    (100 : Nat) ≤ second ∧ [4000000, 35000000].sum = [39000000, 0].sum ∧
    let c := ((ofHz 100).feeds [4000000, 7000000]).2
    (c.gathered + 39000000) / c.period < UInt32.size ∧
    (c.feed 39000000).1 = 4 ∧ (c.feed 39000000).2.gathered = 0 ∧
    c.feeds [4000000, 35000000] = c.feeds [39000000, 0] := by
  have hrate : (100 : Nat) ≤ second := by decide
  have hsum : [4000000, 35000000].sum = [39000000, 0].sum := by decide
  obtain ⟨hperiod, hfeed, -, hsame, -⟩ := feeding_is_division hrate [4000000, 7000000]
  have hperiod' : second / max 100 1 = 10000000 := by decide
  have hgathered := ((Tracks.ofHz hrate).feeds [4000000, 7000000]).gathered_eq
  rw [hperiod'] at hperiod hgathered
  simp only [hperiod, hgathered] at hfeed ⊢
  have hfit : ((0 + [4000000, 7000000].sum) % 10000000 + 39000000) / 10000000 < UInt32.size := by
    decide
  obtain ⟨-, -, hfired, hleft, -⟩ := hfeed 39000000 hfit
  exact ⟨hrate, hsum, hfit, hfired, hleft, hsame _ _ hsum⟩

end Chip8.Cadence
