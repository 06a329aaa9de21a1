import Chip8.Proofs.Pacing
import Mathlib.Data.List.Chain
import Mathlib.Data.Nat.Sqrt

set_option autoImplicit false

/-! # Rates

A period is a second divided by the rate and rounded down to whole nanoseconds, so it is never too
long, and a cadence that loses nothing never falls behind its rate (`rate_mul_div_le`). It may run
ahead of it. But as long as the rate is at most the square root of a second, so that a period is at
least as many nanoseconds as there are periods, what the rounding takes away does not add up to
another period in a second (`div_div_cancel_of_le_sqrt`). How the span was cut into polls makes no
difference, if no part is too long for a poll to account for all of it (`Cuts.accounted_eq`). -/

namespace Chip8

/-! ## Rounded periods -/

/-- A number up to the square root of another is the quotient by its own quotient. -/
theorem div_div_cancel_of_le_sqrt {n d : Nat} (hd : 0 < d) (h : d ≤ n.sqrt) : n / (n / d) = d := by
  have hsquare : d * d ≤ n := Nat.le_sqrt.mp h
  have hle : d ≤ n / d := (Nat.le_div_iff_mul_le hd).mpr hsquare
  have hpos : 0 < n / d := Nat.lt_of_lt_of_le hd hle
  apply Nat.le_antisymm
  · -- one more quotient would exceed what the rounding has taken away
    rw [← Nat.lt_add_one_iff, Nat.div_lt_iff_lt_mul hpos]
    calc n < d * (n / d + 1) := Nat.lt_mul_div_succ n hd
      _ = d * (n / d) + d := Nat.mul_succ _ _
      _ ≤ d * (n / d) + n / d := Nat.add_le_add_left hle _
      _ = (d + 1) * (n / d) := (Nat.succ_mul _ _).symm
  · rw [Nat.le_div_iff_mul_le hpos]
    exact Nat.mul_div_le n d

theorem sqrt_second : Nat.sqrt second = 31622 := by
  rw [eq_comm, Nat.eq_sqrt]
  decide

/-- Periods that are rounded down are not short of the rate. -/
theorem rate_mul_div_le {rate n : Nat} (h : rate ≤ n) (hpos : 0 < n) (t : Nat) :
    rate * t / n ≤ t / (n / max rate 1) := by
  have hrate : 0 < max rate 1 := Nat.lt_of_lt_of_le Nat.zero_lt_one (Nat.le_max_right _ _)
  have hperiod : 0 < n / max rate 1 := Nat.div_pos (Nat.max_le.mpr ⟨h, hpos⟩) hrate
  rw [Nat.le_div_iff_mul_le hperiod]
  apply Nat.le_of_mul_le_mul_right _ hrate
  calc rate * t / n * (n / max rate 1) * max rate 1
      = rate * t / n * (n / max rate 1 * max rate 1) := Nat.mul_assoc _ _ _
    _ ≤ rate * t / n * n := Nat.mul_le_mul_left _ (Nat.div_mul_le_self _ _)
    _ ≤ rate * t := Nat.div_mul_le_self _ _
    _ ≤ max rate 1 * t := Nat.mul_le_mul_right _ (Nat.le_max_left _ _)
    _ = t * max rate 1 := Nat.mul_comm _ _

/-! ## Cutting a span -/

/-- Do the instants cut the span from `t₀` to `t₁` into parts that a poll accounts for in full? They
    come in order, with no more than that between one and the next, and the last one is `t₁`. -/
structure Cuts (t₀ t₁ : Int) (instants : List Int) : Prop where
  chain : List.IsChain (fun now next : Int => now ≤ next ∧ next ≤ now + maxCatchUp)
    (t₀ :: instants)
  last_eq : instants.getLastD t₀ = t₁

namespace Cuts

variable {t₀ t₁ now : Int} {rest : List Int}

theorem tail (h : Cuts t₀ t₁ (now :: rest)) : Cuts now t₁ rest where
  chain := h.chain.tail
  last_eq := by rw [← h.last_eq, List.getLastD_cons]

theorem head (h : Cuts t₀ t₁ (now :: rest)) : t₀ ≤ now ∧ now ≤ t₀ + maxCatchUp :=
  (List.isChain_cons_cons.mp h.chain).1

/-- Polls that cut a span account for all of it. -/
theorem accounted_eq {instants : List Int} (h : Cuts t₀ t₁ instants) :
    (accounted t₀ instants : Int) = t₁ - t₀ := by
  induction instants generalizing t₀ with
  | nil =>
    rw [← h.last_eq]
    exact (Int.sub_self _).symm
  | cons now rest ih =>
    have hrest := ih h.tail
    obtain ⟨hle, hgap⟩ := h.head
    rw [accounted]
    omega

end Cuts

namespace Scheduler

/-! ## Firings over a span -/

/-- A poll fires at most once more than the time that it accounts for has whole periods. -/
theorem of_le_of_mem_polls {s : Scheduler} {b : Beat} {period fired span : Nat}
    (h : (s.of b).Tracks period fired span) (instants : List Int) :
    ∀ ticks ∈ (s.polls instants).1, ticks.of b ≤ maxCatchUp / period + 1 := by
  induction instants generalizing s fired span with
  | nil => simp [polls]
  | cons now rest ih =>
    intro ticks hticks
    rcases List.mem_cons.mp hticks with rfl | hticks
    · rw [fired_poll]
      exact h.fired_feed_le (Nat.min_le_right _ _)
    · exact ih (tracks_poll h now) ticks hticks

/-- **Rates are never short, and exact up to 31622 a second.** Take rates of at most one firing a
    nanosecond, and a span from the start that polls cut into parts of at most the time that a poll
    accounts for. However they cut it, each poll finds a number of firings that 32 bits hold, and
    in all there are as many as the span has periods. These are at least the rate times the span,
    and over a second they are exactly the rate, if that is at most the square root of the
    nanoseconds in a second, although the period is rounded down. -/
theorem rates_never_short (rates : Rates) (hrates : rates.Sane) (b : Beat) (t₀ : Int) (t : Nat)
    (instants : List Int) (hcuts : Cuts t₀ (t₀ + t) instants) :
    let found := ((start rates t₀).polls instants).1
    (∀ ticks ∈ found, ticks.of b < UInt32.size) ∧
    firings b found = t / rates.period b ∧
    rates.of b * t / second ≤ firings b found ∧
    (1 ≤ rates.of b → rates.of b ≤ 31622 → t = second → firings b found = rates.of b) := by
  intro found
  have hstart := tracks_start hrates t₀ b
  have hspan : accounted t₀ instants = t := by
    have haccounted := hcuts.accounted_eq
    omega
  have hfirings : firings b found = t / rates.period b := by
    have hrun := tracks_polls hstart instants
    rw [Nat.zero_add, Nat.zero_add] at hrun
    rw [hrun.fired_eq]
    exact congrArg (· / rates.period b) hspan
  refine ⟨fun ticks hticks => ?_, hfirings, ?_, fun hpos hle ht => ?_⟩
  · have hmost := of_le_of_mem_polls hstart instants ticks hticks
    have hdiv : maxCatchUp / rates.period b ≤ maxCatchUp := Nat.div_le_self _ _
    calc ticks.of b ≤ maxCatchUp + 1 := Nat.le_trans hmost (Nat.add_le_add_right hdiv 1)
      _ < UInt32.size := by decide
  · rw [hfirings]
    exact rate_mul_div_le (hrates b) (by decide) t
  · rw [hfirings, ht, Rates.period, Nat.max_eq_left hpos]
    exact div_div_cancel_of_le_sqrt hpos (sqrt_second ▸ hle)

/-- A second cut into ten parts of the greatest length, one of them cut again and one instant polled
    twice, at the rates that hold if no others are given. -/
theorem polledSecond_fires_at_rate :
    let instants : List Int :=
      [100000000, 200000000, 200000001, 300000000, 400000000, 400000000, 500000000, 600000000,
        700000000, 800000000, 900000000, 1000000000]
    ({} : Rates).Sane ∧ Cuts 0 (0 + second) instants ∧
    1 ≤ ({} : Rates).of .cycle ∧ ({} : Rates).of .cycle ≤ 31622 ∧
    1 ≤ ({} : Rates).of .frame ∧ ({} : Rates).of .frame ≤ 31622 ∧
    firings .cycle ((start {} 0).polls instants).1 = 700 ∧
    firings .frame ((start {} 0).polls instants).1 = 60 := by
  intro instants
  have hrates : ({} : Rates).Sane := by
    intro b
    cases b <;> decide
  have hcuts : Cuts 0 (0 + second) instants := ⟨by decide, by decide⟩
  obtain ⟨-, -, -, hcycles⟩ := rates_never_short {} hrates .cycle 0 second instants hcuts
  obtain ⟨-, -, -, hframes⟩ := rates_never_short {} hrates .frame 0 second instants hcuts
  exact ⟨hrates, hcuts, by decide, by decide, by decide, by decide,
    hcycles (by decide) (by decide) rfl, hframes (by decide) (by decide) rfl⟩

end Scheduler

end Chip8
