import Chip8.Clock.Cadence

set_option autoImplicit false

/-! # The scheduler

Two cadences run off one clock: instruction cycles, and frames. Each poll measures the clock once
and feeds both cadences with the same elapsed time, so neither drags the other along. A long stall
counts as a short one only: after it the program goes on instead of making up for the gap. A clock
that goes backwards counts as one that stands still. -/

namespace Chip8

/-- The most time that one poll accounts for. -/
def maxCatchUp : Nat := 100000000

/-- How many of each event are due. -/
structure Ticks where
  cycles : Nat
  frames : Nat
  deriving DecidableEq, Inhabited

/-- Two cadences off one clock. -/
structure Scheduler where
  cycles : Cadence
  frames : Cadence
  /-- When the clock was last measured. -/
  last : Int

/-- How many cycles and how many frames there are in a second. -/
structure Rates where
  cycles : Nat := 700
  frames : Nat := 60
  deriving DecidableEq, Inhabited

namespace Scheduler

/-- The scheduler for the given rates, with the clock at `start`. -/
def start (rates : Rates) (start : Int) : Scheduler where
  cycles := .ofHz rates.cycles
  frames := .ofHz rates.frames
  last := start

/-- The time that a poll at `now` accounts for. -/
def elapsed (s : Scheduler) (now : Int) : Nat := min (now - s.last).toNat maxCatchUp

/-- Measures the clock: which events are due at `now`, and the scheduler afterwards. -/
def poll (s : Scheduler) (now : Int) : Ticks × Scheduler :=
  let cycles := s.cycles.feed (s.elapsed now)
  let frames := s.frames.feed (s.elapsed now)
  ({ cycles := cycles.1, frames := frames.1 },
    { cycles := cycles.2, frames := frames.2, last := now })

/-- How long it is until the first of the two cadences fires. -/
def untilNext (s : Scheduler) : Nat := min s.cycles.remaining s.frames.remaining

end Scheduler

end Chip8
