import Chip8.Proofs.Stages

set_option autoImplicit false

/-! # The main loop keeps time

A run of the main loop is a clock that moves while a scheduler watches it. As long as the scheduler
looks often enough, every nanosecond reaches both cadences, so the cycles and the frames are the
whole periods of the time that has gone by (`Station.Kept`). If the polls of the keyboard take no
time either, the main loop wakes up exactly when something is due, and neither too early nor too
late (`Station.Punctual`). Both are kept by every pass after which the main loop goes on
(`Station.GoesOn`). -/

namespace Chip8

/-- Which of two pieces of work comes first: the one that is earlier, and at the same instant a
    cycle before a frame. -/
def Work.Before (w w' : Work) : Prop :=
  w.time < w'.time ∨ (w.time = w'.time ∧ w.beat = .cycle ∧ w'.beat = .frame)

/-- The first `count` whole periods after `start`. -/
def periodsAfter (start period count : Nat) : List Nat :=
  (List.range count).map fun i => start + (i + 1) * period

theorem periodsAfter_succ (start period count : Nat) :
    periodsAfter start period (count + 1)
      = periodsAfter start period count ++ [start + (count + 1) * period] := by
  unfold periodsAfter
  rw [List.range_succ, List.map_append]
  rfl

namespace Station

/-! ## Nothing is lost -/

/-- A station that has done its work in time, since the main loop was entered at `s`. -/
structure Kept (s : Station) (now : Nat) (work : List Work) (scheduler : Scheduler)
    (st : Station) : Prop where
  last_eq : scheduler.last = now
  start_le : s.clock ≤ now
  now_le : now ≤ st.clock
  /-- Either cadence has lost nothing of the time between. -/
  tracks : ∀ b, (scheduler.of b).Tracks (s.rates.period b) (timesOf b work).length (now - s.clock)
  work_eq : st.work = s.work ++ work
  tally_eq : ∀ b, st.tally b = s.tally b + (timesOf b work).length
  sleeps_pos : ∃ sleeps, st.journal.sleeps.toList = s.journal.sleeps.toList ++ sleeps ∧
    ∀ d ∈ sleeps, 0 < d

namespace Kept

variable {s st st' : Station} {now : Nat} {work : List Work} {scheduler scheduler' : Scheduler}
  {p : Poll}

theorem start (hrates : s.rates.Sane) : Kept s s.clock [] (Scheduler.start s.rates s.clock) s where
  last_eq := rfl
  start_le := Nat.le_refl _
  now_le := Nat.le_refl _
  tracks b := by
    rw [Nat.sub_self]
    exact Scheduler.tracks_start hrates _ b
  work_eq := (List.append_nil _).symm
  tally_eq _ := rfl
  sleeps_pos := ⟨[], (List.append_nil _).symm, fun _ h => absurd h List.not_mem_nil⟩

/-- A poll that is not too late accounts for all the time since the one before. -/
theorem elapsed_eq (h : Kept s now work scheduler st) {next : Nat} (hnow : now ≤ next)
    (hgap : next - now ≤ maxCatchUp) : scheduler.elapsed next = next - now := by
  have hnext : (next : Int) = scheduler.last + (next - now : Nat) := by
    rw [h.last_eq]
    omega
  rw [hnext]
  exact scheduler.elapsed_add hgap

/-- A pass that measures the clock in time keeps everything. -/
theorem pass (h : Kept s now work scheduler st) (hwent : Went p scheduler st scheduler' st')
    (hgap : st.clock + p.busy - now ≤ maxCatchUp) :
    Kept s (st.clock + p.busy)
      (work ++ (scheduler.poll ↑(st.clock + p.busy)).1.work (st.clock + p.busy))
      scheduler' st' := by
  have hstart := h.start_le
  have hnow := h.now_le
  have helapsed := h.elapsed_eq (Nat.le_add_right_of_le hnow) hgap
  have htracks (b) : (scheduler'.of b).Tracks (s.rates.period b)
      (timesOf b (work ++ (scheduler.poll ↑(st.clock + p.busy)).1.work (st.clock + p.busy))).length
      (st.clock + p.busy - s.clock) := by
    have hspan : st.clock + p.busy - s.clock = now - s.clock + (st.clock + p.busy - now) := by omega
    rw [hwent.scheduler_eq, timesOf_append, timesOf_ticks, List.length_append,
      List.length_replicate, hspan, ← helapsed]
    exact Scheduler.tracks_poll (h.tracks b) _
  exact {
    last_eq := by rw [hwent.scheduler_eq]; rfl
    start_le := by omega
    now_le := by rw [hwent.clock_eq]; omega
    tracks := htracks
    work_eq := by rw [hwent.work_eq, h.work_eq, List.append_assoc]
    tally_eq := fun b => by
      rw [hwent.tally_eq, h.tally_eq, timesOf_append, timesOf_ticks, List.length_append,
        List.length_replicate, Nat.add_assoc]
    sleeps_pos := by
      obtain ⟨sleeps, hsleeps, hpos⟩ := h.sleeps_pos
      refine ⟨sleeps ++ [scheduler'.untilNext], ?_, fun d hd => ?_⟩
      · rw [hwent.sleeps_eq, hsleeps, List.append_assoc]
      · rcases List.mem_append.mp hd with hd | hd
        · exact hpos d hd
        · rw [List.mem_singleton.mp hd]
          exact Scheduler.untilNext_pos htracks }

theorem length_eq (h : Kept s now work scheduler st) (b : Beat) :
    (timesOf b work).length = (now - s.clock) / s.rates.period b :=
  (h.tracks b).fired_eq

end Kept

/-- When the scheduler measured the clock in the pass `k`, counted from one; zero stands for the
    moment when the main loop was entered. -/
def measured (limit : Option Nat) (find : Nat → Poll) (s : Station) (k : Nat) : Nat :=
  ((afterPasses limit find s k).map (·.1.last.toNat)).getD s.clock

section

variable {limit : Option Nat} {find : Nat → Poll} {s : Station}

theorem measured_eq {k now : Nat} {scheduler : Scheduler} {st : Station}
    (h : afterPasses limit find s k = some (scheduler, st)) (hlast : scheduler.last = now) :
    measured limit find s k = now := by
  rw [measured, h]
  show scheduler.last.toNat = now
  rw [hlast, Int.toNat_natCast]

theorem last_afterPasses {k : Nat} {scheduler : Scheduler} {st : Station}
    (h : afterPasses limit find s k = some (scheduler, st)) :
    scheduler.last = measured limit find s k ∧ measured limit find s k ≤ st.clock := by
  cases k with
  | zero =>
    obtain ⟨rfl, rfl⟩ := Prod.mk.inj (Option.some.inj h)
    exact ⟨rfl, Nat.le_refl _⟩
  | succ k =>
    obtain ⟨before, st₀, -, hpass⟩ := afterPasses_succ h
    have hwent := went_of_pass hpass
    have hlast : scheduler.last = (st₀.clock + (find k).busy : Nat) := by
      rw [hwent.scheduler_eq]
      rfl
    rw [measured_eq h hlast, hwent.clock_eq]
    exact ⟨hlast, Nat.le_add_right _ _⟩

theorem measured_le_succ {k : Nat} {scheduler : Scheduler} {st : Station}
    (h : afterPasses limit find s (k + 1) = some (scheduler, st)) :
    measured limit find s k ≤ measured limit find s (k + 1) := by
  obtain ⟨before, st₀, hbefore, hpass⟩ := afterPasses_succ h
  have hle := (last_afterPasses hbefore).2
  have hlast : scheduler.last = (st₀.clock + (find k).busy : Nat) := by
    rw [(went_of_pass hpass).scheduler_eq]
    rfl
  rw [measured_eq h hlast]
  exact Nat.le_add_right_of_le hle

theorem kept_afterPasses (hrates : s.rates.Sane) {k : Nat} {scheduler : Scheduler} {st : Station}
    (h : afterPasses limit find s k = some (scheduler, st))
    (hgaps : ∀ j, j < k → measured limit find s (j + 1) - measured limit find s j ≤ maxCatchUp) :
    ∃ work, Kept s (measured limit find s k) work scheduler st := by
  induction k generalizing scheduler st with
  | zero =>
    obtain ⟨rfl, rfl⟩ := Prod.mk.inj (Option.some.inj h)
    exact ⟨[], .start hrates⟩
  | succ k ih =>
    obtain ⟨before, st₀, hbefore, hpass⟩ := afterPasses_succ h
    obtain ⟨work, hkept⟩ := ih hbefore fun j hj => hgaps j (by omega)
    have hwent := went_of_pass hpass
    have hnow : measured limit find s (k + 1) = st₀.clock + (find k).busy :=
      measured_eq h (by rw [hwent.scheduler_eq]; rfl)
    have hgap := hgaps k (Nat.lt_succ_self k)
    rw [hnow] at hgap ⊢
    exact ⟨_, hkept.pass hwent hgap⟩

/-! ## Nothing is late -/

/-- A station that has done its work in time, and each piece of it exactly when it was due. -/
structure Punctual (s : Station) (now : Nat) (work : List Work) (scheduler : Scheduler)
    (st : Station) : Prop extends Kept s now work scheduler st where
  /-- The work of either beat was begun when its periods were over. -/
  times_eq : ∀ b, timesOf b work
    = periodsAfter s.clock (s.rates.period b) (timesOf b work).length
  before : work.Pairwise Work.Before
  le_now : ∀ w ∈ work, w.time ≤ now
  /-- The next pass comes no later than the next event, and it does not find the clock where it was
      unless it is the first one. -/
  ahead : st.clock ≤ now + scheduler.untilNext ∧ (now < st.clock ∨ work = [])

/-- Events of either beat, at most one each, are in order if they come after everything else. -/
theorem pairwise_append_work {work : List Work} {due : Ticks} {now next : Nat}
    (hwork : work.Pairwise Work.Before) (hle : ∀ w ∈ work, w.time ≤ now)
    (hlater : now < next ∨ work = []) (hdue : ∀ b, due.of b ≤ 1) :
    (work ++ due.work next).Pairwise Work.Before := by
  refine List.pairwise_append.mpr ⟨hwork, List.pairwise_append.mpr ⟨?_, ?_, ?_⟩, ?_⟩
  · exact List.pairwise_replicate.mpr (.inl (hdue .cycle))
  · exact List.pairwise_replicate.mpr (.inl (hdue .frame))
  · -- a cycle and a frame at the same instant
    intro w hw w' hw'
    rw [List.eq_of_mem_replicate hw, List.eq_of_mem_replicate hw']
    exact .inr ⟨rfl, rfl, rfl⟩
  · intro w hw w' hw'
    rcases hlater with hlt | hnone
    · refine .inl ?_
      have hthen := time_of_mem_work hw'
      have hbefore := hle w hw
      omega
    · rw [hnone] at hw
      exact absurd hw List.not_mem_nil

namespace Punctual

variable {s st st' : Station} {now : Nat} {work : List Work} {scheduler scheduler' : Scheduler}
  {p : Poll}

theorem start (hrates : s.rates.Sane) :
    Punctual s s.clock [] (Scheduler.start s.rates s.clock) s where
  toKept := .start hrates
  times_eq _ := rfl
  before := .nil
  le_now _ h := absurd h List.not_mem_nil
  ahead := ⟨Nat.le_add_right _ _, .inr rfl⟩

/-- If one of the periods is short enough, the next pass measures the clock in time. -/
theorem gap_le (h : Punctual s now work scheduler st)
    (hshort : ∃ b, s.rates.period b ≤ maxCatchUp) : st.clock - now ≤ maxCatchUp := by
  obtain ⟨b, hb⟩ := hshort
  have hahead := h.ahead.1
  have hnext := scheduler.untilNext_le_remaining b
  have hperiod := (h.tracks b).gathered_add_remaining
  omega

/-- What the next pass finds due: one of a beat whose next firing is just then, and else nothing. -/
theorem due_eq (h : Punctual s now work scheduler st)
    (hshort : ∃ b, s.rates.period b ≤ maxCatchUp) (b : Beat) :
    (scheduler.poll st.clock).1.of b
      = if (scheduler.of b).remaining = st.clock - now then 1 else 0 := by
  have hahead := h.ahead.1
  have hnext := scheduler.untilNext_le_remaining b
  rw [Scheduler.fired_poll, h.elapsed_eq h.now_le (h.gap_le hshort)]
  exact (h.tracks b).fired_feed_of_le (by omega)

/-- A pass that polls the keyboard in no time keeps everything. -/
theorem pass (h : Punctual s now work scheduler st)
    (hshort : ∃ b, s.rates.period b ≤ maxCatchUp) (hbusy : p.busy = 0)
    (hwent : Went p scheduler st scheduler' st') :
    Punctual s st.clock (work ++ (scheduler.poll st.clock).1.work st.clock) scheduler' st' := by
  have hgap := h.gap_le hshort
  have hdue := h.due_eq hshort
  have hnow := h.now_le
  have hkept := h.toKept.pass hwent (by rw [hbusy]; exact hgap)
  have hclock := hwent.clock_eq
  rw [hbusy, Nat.add_zero] at hkept hclock
  have hpos := Scheduler.untilNext_pos hkept.tracks
  exact {
    toKept := hkept
    times_eq := fun b => by
      rw [timesOf_append, timesOf_ticks, hdue]
      by_cases hfires : (scheduler.of b).remaining = st.clock - now
      · -- the firing is the next period after the ones before
        have hstart := h.start_le
        have hspan := (h.tracks b).conserved
        have hperiod := (h.tracks b).gathered_add_remaining
        have htime : st.clock
            = s.clock + ((timesOf b work).length + 1) * s.rates.period b := by
          rw [Nat.add_mul, Nat.one_mul]
          omega
        rw [if_pos hfires, List.length_append, List.length_replicate, periodsAfter_succ,
          ← h.times_eq b, ← htime]
        rfl
      · rw [if_neg hfires, List.replicate_zero, List.append_nil]
        exact h.times_eq b
    before := by
      refine pairwise_append_work h.before h.le_now h.ahead.2 fun b => ?_
      rw [hdue b]
      split <;> omega
    le_now := fun w hw => by
      rcases List.mem_append.mp hw with hw | hw
      · exact Nat.le_trans (h.le_now w hw) hnow
      · exact Nat.le_of_eq (time_of_mem_work hw)
    -- the pass has slept for as long as it is until the next event
    ahead := by omega }

end Punctual

theorem punctual_afterPasses (hrates : s.rates.Sane)
    (hshort : ∃ b, s.rates.period b ≤ maxCatchUp) {k : Nat} {scheduler : Scheduler} {st : Station}
    (h : afterPasses limit find s k = some (scheduler, st))
    (hbusy : ∀ j, j < k → (find j).busy = 0) :
    ∃ work, Punctual s (measured limit find s k) work scheduler st := by
  induction k generalizing scheduler st with
  | zero =>
    obtain ⟨rfl, rfl⟩ := Prod.mk.inj (Option.some.inj h)
    exact ⟨[], .start hrates⟩
  | succ k ih =>
    obtain ⟨before, st₀, hbefore, hpass⟩ := afterPasses_succ h
    obtain ⟨work, hpunctual⟩ := ih hbefore fun j hj => hbusy j (by omega)
    have hidle := hbusy k (Nat.lt_succ_self k)
    have hnext := hpunctual.pass hshort hidle (went_of_pass hpass)
    rw [measured_eq h hnext.last_eq]
    exact ⟨_, hnext⟩

/-- Every pass after the first one finds something due, if the polls of the keyboard take no
    time. -/
theorem tally_lt_of_pass (hrates : s.rates.Sane) (hshort : ∃ b, s.rates.period b ≤ maxCatchUp)
    {j : Nat} (hj : 0 < j) (hbusy : ∀ i, i < j + 1 → (find i).busy = 0)
    {scheduler scheduler' : Scheduler} {st st' : Station}
    (h : afterPasses limit find s j = some (scheduler, st))
    (h' : afterPasses limit find s (j + 1) = some (scheduler', st')) :
    ∃ b, st.tally b < st'.tally b := by
  obtain ⟨work, hpunctual⟩ := punctual_afterPasses hrates hshort h fun i hi => hbusy i (by omega)
  -- the pass before has slept until the next event
  have hclock : st.clock = measured limit find s j + scheduler.untilNext := by
    obtain ⟨i, rfl⟩ : ∃ i, j = i + 1 := ⟨j - 1, by omega⟩
    obtain ⟨_, _, _, hpass⟩ := afterPasses_succ h
    have hwent := went_of_pass hpass
    rw [measured_eq h (by rw [hwent.scheduler_eq]; rfl)]
    exact hwent.clock_eq
  obtain ⟨scheduler₀, st₀, hbefore, hpass⟩ := afterPasses_succ h'
  obtain ⟨rfl, rfl⟩ := Prod.mk.inj (Option.some.inj (h.symm.trans hbefore))
  have hwent := went_of_pass hpass
  obtain ⟨b, hb⟩ := (scheduler.untilNext_le_iff _).mp (Nat.le_refl _)
  have hleast := scheduler.untilNext_le_remaining b
  have hdue := hpunctual.due_eq hshort b
  rw [if_pos (by omega)] at hdue
  refine ⟨b, ?_⟩
  rw [hwent.tally_eq, hbusy j (Nat.lt_succ_self j), Nat.add_zero, hdue]
  exact Nat.lt_succ_self _

/-- **The main loop keeps time.** Let the scheduler have measured the clock at `t k` in the pass `k`
    of the main loop, entered at `t 0`, and let it go on after that pass. If it never went without a
    measure for too long, then it has run as many cycles and as many frames as there are whole
    periods from `t 0` to `t k`. If polling the keyboard took no time and one of the periods is
    short enough, which a frame rate of 60 sees to, then every sleep was longer than zero, every
    pass after the first one ran something, and each cycle and each frame was begun exactly when its
    period was over, a cycle before a frame if that was at the same instant. The main loop does go
    on for so many passes iff nobody asks to leave in any of them, nothing fails that is begun in
    them and the limit on cycles is not found reached (`GoesOn`). -/
theorem mainLoop_keeps_time (limit : Option Nat) (polls : Polls) (s : Station)
    (hrates : s.rates.Sane) (k : Nat) (hk : k ≤ polls.count) (scheduler : Scheduler) (st : Station)
    (hrun : afterPasses limit polls.find s k = some (scheduler, st)) :
    let t := measured limit polls.find s
    (∀ j, (∃ r, afterPasses limit polls.find s j = some r) ↔
      ∀ i, i < j → GoesOn limit polls.find s i) ∧
    mainLoop limit polls s = passes limit polls.find (polls.count - k) k scheduler st ∧
    t 0 = s.clock ∧ scheduler.last = t k ∧ (∀ j, j < k → t j ≤ t (j + 1)) ∧
    ((∀ j, j < k → t (j + 1) - t j ≤ maxCatchUp) →
      ∀ b, st.tally b = s.tally b + (t k - t 0) / s.rates.period b) ∧
    (s.rates.frames = 60 → s.rates.period .frame ≤ maxCatchUp) ∧
    ((∀ j, j < k → (polls.find j).busy = 0) → (∃ b, s.rates.period b ≤ maxCatchUp) →
      (∃ sleeps, st.journal.sleeps.toList = s.journal.sleeps.toList ++ sleeps ∧
        ∀ d ∈ sleeps, 0 < d) ∧
      (∀ j, 0 < j → j < k → ∀ scheduler₁ st₁ scheduler₂ st₂,
        afterPasses limit polls.find s j = some (scheduler₁, st₁) →
        afterPasses limit polls.find s (j + 1) = some (scheduler₂, st₂) →
        ∃ b, st₁.tally b < st₂.tally b) ∧
      ∃ work, st.work = s.work ++ work ∧ work.Pairwise Work.Before ∧
        ∀ b, timesOf b work
          = periodsAfter (t 0) (s.rates.period b) ((t k - t 0) / s.rates.period b)) := by
  intro t
  refine ⟨fun j => exists_afterPasses_iff, mainLoop_eq_passes hrun hk, rfl,
    (last_afterPasses hrun).1, fun j hj => ?_, fun hgaps b => ?_, fun hsixty => ?_,
    fun hbusy hshort => ?_⟩
  · obtain ⟨_, hearlier⟩ := afterPasses_of_le hrun (show j + 1 ≤ k from hj)
    exact measured_le_succ hearlier
  · obtain ⟨work, hkept⟩ := kept_afterPasses hrates hrun hgaps
    rw [hkept.tally_eq, hkept.length_eq]
    rfl
  · show second / max s.rates.frames 1 ≤ maxCatchUp
    rw [hsixty]
    decide
  · obtain ⟨work, hpunctual⟩ := punctual_afterPasses hrates hshort hrun hbusy
    refine ⟨hpunctual.sleeps_pos, ?_, work, hpunctual.work_eq, hpunctual.before, fun b => ?_⟩
    · intro j hpos hj scheduler₁ st₁ scheduler₂ st₂ h₁ h₂
      exact tally_lt_of_pass hrates hshort hpos (fun i hi => hbusy i (by omega)) h₁ h₂
    · have htimes := hpunctual.times_eq b
      rw [hpunctual.length_eq] at htimes
      exact htimes

/-- A station with ten cycles and twenty frames a second, where the machine waits for a key. -/
def waiting : Station where
  console := { machine := { Machine.fresh {} 0 with activity := .awaitingKey 0 } }
  rates := { cycles := 10, frames := 20 }

/-- Three passes at a station where nobody touches the keyboard: there is nothing to do in the first
    one, a frame in the second, and a cycle and a frame in the third. -/
theorem waiting_keeps_time :
    waiting.rates.Sane ∧ ∃ scheduler st,
      afterPasses none (fun _ => {}) waiting 3 = some (scheduler, st) ∧
      (∀ i, i < 3 → GoesOn none (fun _ => {}) waiting i) ∧
      st.console.cycles = 1 ∧ st.frames = 2 ∧
      timesOf .cycle st.work = [100000000] ∧ timesOf .frame st.work = [50000000, 100000000] := by
  have hrates : waiting.rates.Sane := by
    intro b
    cases b <;> decide
  obtain ⟨⟨scheduler, st⟩, hrun⟩ : ∃ r, afterPasses none (fun _ => {}) waiting 3 = some r :=
    Option.isSome_iff_exists.mp (by decide +kernel)
  have hend : measured none (fun _ => {}) waiting 3 = 100000000 := by decide +kernel
  have hgaps : ∀ j, j < 3 → measured none (fun _ => {}) waiting (j + 1)
      - measured none (fun _ => {}) waiting j ≤ maxCatchUp := by decide +kernel
  obtain ⟨hgoes, -, hstart, -, -, hcounts, -, hpunctual⟩ := mainLoop_keeps_time none
    { count := 3, find := fun _ => {} } waiting hrates 3 (Nat.le_refl 3) scheduler st hrun
  have hcycles := hcounts hgaps .cycle
  have hframes := hcounts hgaps .frame
  obtain ⟨-, -, work, hwork, -, htimes⟩ := hpunctual (fun _ _ => rfl) ⟨.cycle, by decide⟩
  rw [hstart, hend] at hcycles hframes htimes
  refine ⟨hrates, scheduler, st, hrun, (hgoes 3).mp ⟨_, hrun⟩, hcycles, hframes, ?_, ?_⟩
  · rw [hwork]
    exact htimes .cycle
  · rw [hwork]
    exact htimes .frame

end

end Station

end Chip8
