import Chip8.Clock.Scheduler

set_option autoImplicit false

/-! # Pacing

A scheduler paces two beats off one clock, instruction cycles and frames, each with a cadence of its
own. Whatever the instants at which the clock is measured, a cadence loses nothing: its firings, a
period each, and the time that it carries make up the time that the polls have accounted for
(`Cadence.Tracks`). What the scheduler answers from then on, how many firings a poll finds and how
long it is until the next one, follows from that and from a cadence carrying less than a period. -/

namespace Chip8

/-! ## The two beats -/

/-- The two things that are paced. -/
inductive Beat where
  | cycle
  | frame
  deriving DecidableEq

/-- How many of a beat there are in a second. -/
def Rates.of (rates : Rates) : Beat → Nat
  | .cycle => rates.cycles
  | .frame => rates.frames

/-- The time from one of a beat to the next: a second divided by the rate, rounded down, where a
    rate of zero counts as one. -/
def Rates.period (rates : Rates) (b : Beat) : Nat := second / max (rates.of b) 1

def Ticks.of (ticks : Ticks) : Beat → Nat
  | .cycle => ticks.cycles
  | .frame => ticks.frames

def Scheduler.of (s : Scheduler) : Beat → Cadence
  | .cycle => s.cycles
  | .frame => s.frames

/-- Rates of at most one a nanosecond, which leave room for a period. -/
def Rates.Sane (rates : Rates) : Prop := ∀ b, rates.of b ≤ second

/-! ## The loop of a cadence -/

namespace Cadence

/-- The loop that takes periods off, broken off after so many turns: how many periods it has taken
    off and what is left, if it has come to its end. -/
def drainWithin (period : Nat) : (turns gathered fired : Nat) → Option (Nat × Nat)
  | 0, _, _ => none
  | turns + 1, gathered, fired =>
    if period ≤ gathered then drainWithin period turns (gathered - period) (fired + 1)
    else some (fired, gathered)

theorem drainWithin_eq {period turns gathered : Nat} (fired : Nat) (h : 0 < period)
    (hturns : gathered / period < turns) :
    drainWithin period turns gathered fired = some (drain period gathered fired h) := by
  induction turns generalizing gathered fired with
  | zero => exact absurd hturns (Nat.not_lt_zero _)
  | succ turns ih =>
    unfold drainWithin drain
    by_cases hle : period ≤ gathered
    · have hfewer : (gathered - period) / period < turns := by
        rw [Nat.div_eq_sub_div h hle] at hturns
        omega
      rw [if_pos hle, if_pos hle]
      exact ih (fired + 1) hfewer
    · rw [if_neg hle, if_neg hle]

/-! ## Feeding -/

theorem period_ofHz {hz : Nat} (h : hz ≤ second) : (ofHz hz).period = second / max hz 1 := by
  have hsecond : max hz 1 ≤ second := Nat.max_le.mpr ⟨h, by decide⟩
  have hpos : 0 < second / max hz 1 := Nat.div_pos hsecond (by omega)
  exact Nat.max_eq_right hpos

theorem fired_feed (c : Cadence) (elapsed : Nat) :
    (c.feed elapsed).1 = (c.gathered + elapsed) / c.period := by
  simp only [feed, drain_eq, Nat.zero_add]

theorem gathered_feed (c : Cadence) (elapsed : Nat) :
    (c.feed elapsed).2.gathered = (c.gathered + elapsed) % c.period := by
  simp only [feed, drain_eq]

theorem conserved_feed (c : Cadence) (elapsed : Nat) :
    (c.feed elapsed).1 * c.period + (c.feed elapsed).2.gathered = c.gathered + elapsed := by
  rw [fired_feed, gathered_feed]
  exact Nat.div_add_mod' _ _

/-! ## Cadences that have lost nothing -/

/-- A cadence that has fired so many times over a span of time, and has lost nothing of it. -/
structure Tracks (c : Cadence) (period fired span : Nat) : Prop where
  period_eq : c.period = period
  /-- The span is made up of the firings and of what is carried. -/
  conserved : fired * period + c.gathered = span
  gathered_lt : c.gathered < period

namespace Tracks

variable {c : Cadence} {period fired span : Nat}

theorem ofHz {hz : Nat} (h : hz ≤ second) : (ofHz hz).Tracks (second / max hz 1) 0 0 where
  period_eq := period_ofHz h
  conserved := by rw [Nat.zero_mul, Nat.zero_add]; rfl
  gathered_lt := period_ofHz h ▸ (Cadence.ofHz hz).period_pos

theorem feed (h : c.Tracks period fired span) (elapsed : Nat) :
    (c.feed elapsed).2.Tracks period (fired + (c.feed elapsed).1) (span + elapsed) where
  period_eq := h.period_eq
  conserved := by
    have hfed := c.conserved_feed elapsed
    have hspan := h.conserved
    rw [h.period_eq] at hfed
    rw [Nat.add_mul]
    omega
  gathered_lt := h.period_eq ▸ c.gathered_feed_lt elapsed

/-- The firings are the whole periods of the span. -/
theorem fired_eq (h : c.Tracks period fired span) : fired = span / period := by
  have hpos : 0 < period := Nat.lt_of_le_of_lt (Nat.zero_le _) h.gathered_lt
  rw [← h.conserved, Nat.add_comm, Nat.add_mul_div_right _ _ hpos,
    Nat.div_eq_of_lt h.gathered_lt, Nat.zero_add]

/-- What is carried and what remains make up a period. -/
theorem gathered_add_remaining (h : c.Tracks period fired span) :
    c.gathered + c.remaining = period := by
  have hlt := h.gathered_lt
  have hperiod := h.period_eq
  unfold remaining
  omega

/-- A feeding fires if and only if it lasts until the next firing. -/
theorem fires_iff (h : c.Tracks period fired span) (elapsed : Nat) :
    0 < (c.feed elapsed).1 ↔ c.remaining ≤ elapsed := by
  have hperiod := h.gathered_add_remaining
  rw [fired_feed, h.period_eq, Nat.div_pos_iff]
  have hlt := h.gathered_lt
  omega

/-- A feeding that does not last beyond the next firing fires at most once, and only if it lasts
    until then. -/
theorem fired_feed_of_le (h : c.Tracks period fired span) {elapsed : Nat}
    (hle : elapsed ≤ c.remaining) :
    (c.feed elapsed).1 = if c.remaining = elapsed then 1 else 0 := by
  have hperiod := h.gathered_add_remaining
  have hlt := h.gathered_lt
  rw [fired_feed, h.period_eq]
  by_cases heq : c.remaining = elapsed
  · rw [if_pos heq, ← heq, hperiod]
    exact Nat.div_self (by omega)
  · rw [if_neg heq]
    exact Nat.div_eq_of_lt (by omega)

/-- A feeding fires at most once more than it has whole periods. -/
theorem fired_feed_le (h : c.Tracks period fired span) {elapsed most : Nat} (hle : elapsed ≤ most) :
    (c.feed elapsed).1 ≤ most / period + 1 := by
  have hpos : 0 < period := Nat.lt_of_le_of_lt (Nat.zero_le _) h.gathered_lt
  have hgathered := h.gathered_lt
  rw [fired_feed, h.period_eq]
  calc (c.gathered + elapsed) / period ≤ (period + most) / period :=
        Nat.div_le_div_right (by omega)
    _ = most / period + 1 := Nat.add_div_left most hpos

end Tracks

end Cadence

/-! ## Polls in a row -/

/-- How many of a beat were due in all. -/
def firings (b : Beat) : List Ticks → Nat
  | [] => 0
  | ticks :: rest => ticks.of b + firings b rest

/-- The time that polls at the given instants account for, if the clock was last measured at `last`:
    for each poll the time since the one before, which counts as nothing if the clock has gone
    backwards and as the most that a poll accounts for if it is more than that. -/
def accounted (last : Int) : List Int → Nat
  | [] => 0
  | now :: rest => min (now - last).toNat maxCatchUp + accounted now rest

namespace Scheduler

/-- Polls at the given instants, first one first: what each finds due, and the scheduler after the
    last one. -/
def polls (s : Scheduler) : List Int → List Ticks × Scheduler
  | [] => ([], s)
  | now :: rest => ((s.poll now).1 :: ((s.poll now).2.polls rest).1, ((s.poll now).2.polls rest).2)

theorem fired_poll (s : Scheduler) (now : Int) (b : Beat) :
    (s.poll now).1.of b = ((s.of b).feed (s.elapsed now)).1 := by
  cases b <;> rfl

theorem of_poll (s : Scheduler) (now : Int) (b : Beat) :
    (s.poll now).2.of b = ((s.of b).feed (s.elapsed now)).2 := by
  cases b <;> rfl

theorem tracks_start {rates : Rates} (h : rates.Sane) (t₀ : Int) (b : Beat) :
    ((start rates t₀).of b).Tracks (rates.period b) 0 0 := by
  cases b with
  | cycle => exact Cadence.Tracks.ofHz (h .cycle)
  | frame => exact Cadence.Tracks.ofHz (h .frame)

/-- One poll loses nothing of the time that it accounts for. -/
theorem tracks_poll {s : Scheduler} {b : Beat} {period fired span : Nat}
    (h : (s.of b).Tracks period fired span) (now : Int) :
    ((s.poll now).2.of b).Tracks period (fired + (s.poll now).1.of b)
      (span + s.elapsed now) := by
  rw [of_poll, fired_poll]
  exact h.feed _

theorem tracks_polls {s : Scheduler} {b : Beat} {period fired span : Nat}
    (h : (s.of b).Tracks period fired span) (instants : List Int) :
    ((s.polls instants).2.of b).Tracks period
      (fired + firings b (s.polls instants).1) (span + accounted s.last instants) := by
  induction instants generalizing s fired span with
  | nil => exact h
  | cons now rest ih =>
    -- what the first poll has fired and accounted for counts as past for the others
    have hrest := ih (tracks_poll h now)
    rw [Nat.add_assoc, Nat.add_assoc] at hrest
    exact hrest

theorem last_polls (s : Scheduler) (instants : List Int) :
    (s.polls instants).2.last = instants.getLastD s.last := by
  induction instants generalizing s with
  | nil => rfl
  | cons now rest ih => rw [polls, ih, List.getLastD_cons]; rfl

/-! ## The next event -/

theorem untilNext_le_iff (s : Scheduler) (d : Nat) :
    s.untilNext ≤ d ↔ ∃ b, (s.of b).remaining ≤ d := by
  have hmin : s.untilNext = min s.cycles.remaining s.frames.remaining := rfl
  constructor
  · intro h
    rcases Nat.le_total s.cycles.remaining s.frames.remaining with hle | hle
    · exact ⟨.cycle, Nat.min_eq_left hle ▸ hmin ▸ h⟩
    · exact ⟨.frame, Nat.min_eq_right hle ▸ hmin ▸ h⟩
  · rintro ⟨b, hb⟩
    cases b with
    | cycle => exact Nat.le_trans (Nat.min_le_left _ _) hb
    | frame => exact Nat.le_trans (Nat.min_le_right _ _) hb

theorem untilNext_le_remaining (s : Scheduler) (b : Beat) : s.untilNext ≤ (s.of b).remaining :=
  (s.untilNext_le_iff _).mpr ⟨b, Nat.le_refl _⟩

/-- A poll accounts for all the time since the one before, unless that is too long. -/
theorem elapsed_add (s : Scheduler) {d : Nat} (hd : d ≤ maxCatchUp) :
    s.elapsed (s.last + d) = d := by
  unfold elapsed
  rw [Int.add_comm, Int.add_sub_cancel, Int.toNat_natCast]
  exact Nat.min_eq_left hd

theorem untilNext_pos {s : Scheduler} {rates : Rates} {fired : Beat → Nat} {span : Nat}
    (h : ∀ b, (s.of b).Tracks (rates.period b) (fired b) span) : 0 < s.untilNext := by
  -- a cadence with nothing remaining would carry a whole period
  refine Nat.pos_of_ne_zero fun hzero => ?_
  obtain ⟨b, hb⟩ := (s.untilNext_le_iff 0).mp (Nat.le_of_eq hzero)
  have hperiod := (h b).gathered_add_remaining
  have hlt := (h b).gathered_lt
  omega

/-- **Nothing is lost.** Whatever the instants of the polls, for each beat the firings, a period
    each, and the time carried are together the time accounted for, and less than a period is
    carried. So the loop of the next poll comes to its end, after a number of firings that a counter
    of 32 bits holds; the next event is ahead, by at most either period; and a poll finds something
    due if and only if it comes no earlier. -/
theorem polls_lose_nothing (rates : Rates) (hrates : rates.Sane) (t₀ : Int) (instants : List Int) :
    let run := (start rates t₀).polls instants
    let s := run.2
    s.last = instants.getLastD t₀ ∧
    (∀ b,
      (s.of b).period = rates.period b ∧
      firings b run.1 * rates.period b + (s.of b).gathered = accounted t₀ instants ∧
      (s.of b).gathered < rates.period b ∧
      ∀ now : Int,
        Cadence.drainWithin (s.of b).period (maxCatchUp / rates.period b + 2)
            ((s.of b).gathered + s.elapsed now) 0
          = some ((s.poll now).1.of b, ((s.poll now).2.of b).gathered) ∧
        (s.poll now).1.of b ≤ maxCatchUp / rates.period b + 1 ∧
        (s.poll now).1.of b < UInt32.size) ∧
    0 < s.untilNext ∧
    (∀ b, s.untilNext ≤ rates.period b) ∧
    ∀ d : Nat, d ≤ maxCatchUp →
      ((∃ b, 0 < (s.poll (s.last + d)).1.of b) ↔ s.untilNext ≤ d) := by
  intro run s
  have htracks (b) : (s.of b).Tracks (rates.period b) (firings b run.1)
      (accounted t₀ instants) := by
    have hrun := tracks_polls (tracks_start hrates t₀ b) instants
    rw [Nat.zero_add, Nat.zero_add] at hrun
    exact hrun
  refine ⟨last_polls _ _, fun b => ?_, untilNext_pos htracks, fun b => ?_, fun d hd => ?_⟩
  · have hb := htracks b
    refine ⟨hb.period_eq, hb.conserved, hb.gathered_lt, fun now => ?_⟩
    have hmost : (s.poll now).1.of b ≤ maxCatchUp / rates.period b + 1 := by
      rw [fired_poll]
      exact hb.fired_feed_le (Nat.min_le_right _ _)
    refine ⟨?_, hmost, ?_⟩
    · -- the loop has a turn for each firing and one more to see that it is done
      have hturns : ((s.of b).gathered + s.elapsed now) / (s.of b).period
          < maxCatchUp / rates.period b + 2 := by
        rw [← Cadence.fired_feed, ← fired_poll]
        omega
      rw [Cadence.drainWithin_eq 0 (s.of b).period_pos hturns, fired_poll, of_poll]
      rfl
    · have hdiv : maxCatchUp / rates.period b ≤ maxCatchUp := Nat.div_le_self _ _
      have hcatch : maxCatchUp = 100000000 := rfl
      have hsize : UInt32.size = 4294967296 := rfl
      omega
  · have hperiod := (htracks b).gathered_add_remaining
    have hle := s.untilNext_le_remaining b
    omega
  · rw [s.untilNext_le_iff]
    refine exists_congr fun b => ?_
    rw [fired_poll, s.elapsed_add hd]
    exact (htracks b).fires_iff d

/-- A stall of ten seconds and a hundredth of a second after it, at the rates that hold if no others
    are given: only 0.11 seconds count. -/
theorem cycles_after_stall :
    ({} : Rates).Sane ∧
    let run := (start {} 0).polls [10000000000, 10010000000]
    firings .cycle run.1 * 1428571 + (run.2.of .cycle).gathered = 110000000 := by
  have hrates : ({} : Rates).Sane := by
    intro b
    cases b <;> decide
  have hperiod : ({} : Rates).period .cycle = 1428571 := by decide
  have hspan : accounted 0 [10000000000, 10010000000] = 110000000 := by decide
  obtain ⟨-, hbeats, -⟩ := polls_lose_nothing {} hrates 0 [10000000000, 10010000000]
  obtain ⟨-, hconserved, -⟩ := hbeats .cycle
  rw [hperiod, hspan] at hconserved
  exact ⟨hrates, hconserved⟩

end Scheduler

end Chip8
