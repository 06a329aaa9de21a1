import Chip8.Console.Station
import Chip8.Proofs.Pacing

set_option autoImplicit false

/-! # Passes of the main loop

What a station has to show for the passes of the main loop: the cycles and the frames that it has
run, how many and when. Each operation of a pass that succeeds adds its own share to that and leaves
the clock alone (`Station.Did`); only a poll of the keyboard and a sleep move the clock. So a pass
after which the main loop goes on is summed up in a few equations (`Station.Went`), and a run of the
main loop is such passes in a row (`Station.afterPasses`). -/

namespace Chip8

/-! ## Work -/

/-- A cycle or a frame, and when it was begun. -/
structure Work where
  beat : Beat
  time : Nat
  deriving DecidableEq

/-- The work that an event stands for, if it stands for any. -/
def Event.work? : Event → Option Work
  | .cycle time => some { beat := .cycle, time }
  | .draw time _ => some { beat := .frame, time }
  | .peek _ | .lastPeek _ | .tone _ _ => none

/-- When the work of one beat was begun. -/
def timesOf (b : Beat) (work : List Work) : List Nat :=
  (work.filter (·.beat = b)).map (·.time)

/-- The work that is done at `time` if so many events are due: the cycles, and then the frames. -/
def Ticks.work (due : Ticks) (time : Nat) : List Work :=
  List.replicate due.cycles { beat := .cycle, time } ++
    List.replicate due.frames { beat := .frame, time }

theorem timesOf_append (b : Beat) (work more : List Work) :
    timesOf b (work ++ more) = timesOf b work ++ timesOf b more := by
  simp only [timesOf, List.filter_append, List.map_append]

theorem timesOf_replicate (b : Beat) (n : Nat) (w : Work) :
    timesOf b (List.replicate n w) = if w.beat = b then List.replicate n w.time else [] := by
  unfold timesOf
  by_cases h : w.beat = b
  · rw [if_pos h, List.filter_replicate, if_pos (by simpa using h), List.map_replicate]
  · rw [if_neg h, List.filter_replicate, if_neg (by simpa using h), List.map_nil]

theorem timesOf_ticks (b : Beat) (due : Ticks) (time : Nat) :
    timesOf b (due.work time) = List.replicate (due.of b) time := by
  rw [Ticks.work, timesOf_append, timesOf_replicate, timesOf_replicate]
  cases b with
  | cycle => exact List.append_nil _
  | frame => exact List.nil_append _

theorem time_of_mem_work {due : Ticks} {time : Nat} {w : Work} (h : w ∈ due.work time) :
    w.time = time := by
  rcases List.mem_append.mp h with h | h
  · rw [List.eq_of_mem_replicate h]
  · rw [List.eq_of_mem_replicate h]

theorem Console.cycles_cycle {c : Console} (h : c.cycle.fault = none) :
    c.cycle.console.cycles = c.cycles + 1 := by
  simp only [cycle] at h ⊢
  split at h
  · cases h
  · rfl

namespace Station

/-- The work that the journal tells of. -/
def work (s : Station) : List Work := s.journal.events.toList.filterMap Event.work?

/-- How much of a beat has been done. -/
def tally (s : Station) : Beat → Nat
  | .cycle => s.console.cycles
  | .frame => s.frames

/-! ## What operations add -/

/-- What operations have done to a station that leave the clock alone. -/
structure Did (s s' : Station) (work : List Work) : Prop where
  clock_eq : s'.clock = s.clock
  sleeps_eq : s'.journal.sleeps = s.journal.sleeps
  /-- This work has been done. -/
  work_eq : s'.work = s.work ++ work
  tally_eq : ∀ b, s'.tally b = s.tally b + (timesOf b work).length

namespace Did

variable {s s' s'' : Station} {work more : List Work}

theorem refl (s : Station) : Did s s [] where
  clock_eq := rfl
  sleeps_eq := rfl
  work_eq := (List.append_nil _).symm
  tally_eq _ := rfl

theorem trans (h : Did s s' work) (h' : Did s' s'' more) : Did s s'' (work ++ more) where
  clock_eq := h'.clock_eq.trans h.clock_eq
  sleeps_eq := h'.sleeps_eq.trans h.sleeps_eq
  work_eq := by rw [h'.work_eq, h.work_eq, List.append_assoc]
  tally_eq b := by rw [h'.tally_eq, h.tally_eq, timesOf_append, List.length_append, Nat.add_assoc]

end Did

theorem work_record (s : Station) (e : Event) :
    (s.record e).work = s.work ++ e.work?.toList := by
  simp only [work, record, Array.toList_push, List.filterMap_append]
  cases e <;> rfl

theorem did_record {s : Station} {e : Event} (h : e.work? = none) : Did s (s.record e) [] where
  clock_eq := rfl
  sleeps_eq := rfl
  work_eq := by rw [work_record, h]; rfl
  tally_eq b := by cases b <;> rfl

theorem did_note (s : Station) (records : List Record) : Did s (s.note records) [] := by
  unfold note
  split
  · exact .refl s
  · exact {
      clock_eq := rfl
      sleeps_eq := rfl
      work_eq := (List.append_nil _).symm
      tally_eq := fun b => by cases b <;> rfl }

theorem did_cycle {s s' : Station} (h : s.cycle = (.ok (), s')) :
    Did s s' [{ beat := .cycle, time := s.clock }] := by
  simp only [cycle] at h
  split at h
  · cases h
  · next hfault =>
    obtain rfl := (Prod.mk.inj h).2
    suffices hran : Did s { s.record (.cycle s.clock) with console := s.console.cycle.console }
        [{ beat := .cycle, time := s.clock }] from hran.trans (did_note _ _)
    have hcycles := Console.cycles_cycle hfault
    exact {
      clock_eq := rfl
      sleeps_eq := rfl
      work_eq := s.work_record _
      tally_eq := fun b => by
        cases b with
        | cycle => exact hcycles
        | frame => rfl }

theorem did_interrupt {s s' : Station} (h : s.interrupt = (.ok (), s')) :
    Did s s' [{ beat := .frame, time := s.clock }] := by
  simp only [interrupt] at h
  split at h
  · cases h
  · obtain rfl := (Prod.mk.inj h).2
    have hdrawn (f : Console.FrameEnd) (hf : f.console.cycles = s.console.cycles) :
        Did s { s.record (.draw s.clock s.console.machine.screen) with
          console := f.console, frames := s.frames + 1 } [{ beat := .frame, time := s.clock }] :=
      { clock_eq := rfl
        sleeps_eq := rfl
        work_eq := s.work_record _
        tally_eq := fun b => by
          cases b with
          | cycle => exact hf
          | frame => rfl }
    split
    · exact ((hdrawn _ rfl).trans (did_record rfl)).trans (did_note _ _)
    · exact (hdrawn _ rfl).trans (did_note _ _)

/-- Operations that are one piece of work each are as many pieces of work, all at the same time. -/
theorem did_times {op : Station → Except RunError Unit × Station} {b : Beat}
    (hop : ∀ {s s' : Station}, op s = (.ok (), s') → Did s s' [{ beat := b, time := s.clock }])
    {count : Nat} {s s' : Station} (h : times op count s = (.ok (), s')) :
    Did s s' (List.replicate count { beat := b, time := s.clock }) := by
  induction count generalizing s with
  | zero =>
    obtain rfl := (Prod.mk.inj h).2
    exact .refl s
  | succ count ih =>
    unfold times at h
    split at h
    · next s₁ hone =>
      -- the clock stands still, so the others are at the time of the first
      have hfirst := hop hone
      have hrest := ih h
      rw [hfirst.clock_eq] at hrest
      exact hfirst.trans hrest
    · cases h

/-- If the limit on cycles is not found reached, the cycles that are due are just repeated. -/
theorem times_of_runCycles {limit : Option Nat} {due : Nat} {s s' : Station}
    (h : runCycles limit due s = (.ok false, s')) : times cycle due s = (.ok (), s') := by
  induction due generalizing s with
  | zero =>
    obtain rfl := (Prod.mk.inj h).2
    rfl
  | succ due ih =>
    unfold runCycles at h
    split at h
    · cases h
    · unfold times
      split at h
      · exact ih h
      · cases h

/-! ## Passes -/

/-- What a pass after which the main loop goes on has done to a station. -/
structure Went (p : Poll) (scheduler : Scheduler) (s : Station) (scheduler' : Scheduler)
    (s' : Station) : Prop where
  scheduler_eq : scheduler' = (scheduler.poll ↑(s.clock + p.busy)).2
  clock_eq : s'.clock = s.clock + p.busy + scheduler'.untilNext
  sleeps_eq : s'.journal.sleeps.toList = s.journal.sleeps.toList ++ [scheduler'.untilNext]
  /-- The work that was due has been done. -/
  work_eq : s'.work = s.work ++ (scheduler.poll ↑(s.clock + p.busy)).1.work (s.clock + p.busy)
  tally_eq : ∀ b, s'.tally b = s.tally b + (scheduler.poll ↑(s.clock + p.busy)).1.of b

/-- A poll of the keyboard that works only takes its time. -/
theorem did_poll {p : Poll} {s s' : Station} (h : s.poll p = (.ok (), s')) :
    Did { s with clock := s.clock + p.busy } s' [] := by
  simp only [poll] at h
  split at h
  · cases h
  · obtain rfl := (Prod.mk.inj h).2
    exact {
      clock_eq := rfl
      sleeps_eq := rfl
      work_eq := by
        unfold work
        exact s.work_record (.peek s.clock)
      tally_eq := fun b => by cases b <;> rfl }

/-- What a pass comes to if the main loop goes on after it. -/
theorem went_of_pass {limit : Option Nat} {p : Poll} {scheduler scheduler' : Scheduler}
    {s s' : Station} (h : pass limit p scheduler s = (.ok (.inr scheduler'), s')) :
    Went p scheduler s scheduler' s' := by
  unfold pass at h
  split at h
  · cases h
  next s₁ hpoll =>
  have hpolled := did_poll hpoll
  split at h
  · cases h
  simp only at h
  split at h
  · cases h
  · cases h
  next s₂ hcycles =>
  have hrun := did_times did_cycle (times_of_runCycles hcycles)
  split at h
  · cases h
  next s₃ hframes =>
  have hdrawn := did_times did_interrupt hframes
  obtain ⟨hscheduler, rfl⟩ := Prod.mk.inj h
  obtain rfl := Sum.inr.inj (Except.ok.inj hscheduler)
  -- the clock stands still from the end of the poll to the sleep
  have hclock : s₁.clock = s.clock + p.busy := hpolled.clock_eq
  have hdone := (hpolled.trans hrun).trans hdrawn
  rw [List.nil_append, hrun.clock_eq, hclock] at hdone
  rw [hclock]
  exact {
    scheduler_eq := rfl
    clock_eq := by rw [sleep, hdone.clock_eq]
    sleeps_eq := by
      rw [sleep, Array.toList_push, hdone.sleeps_eq]
    work_eq := hdone.work_eq
    tally_eq := fun b => by
      have htally := hdone.tally_eq b
      rw [← Ticks.work, timesOf_ticks, List.length_replicate] at htally
      cases b <;> exact htally }

/-! ## Runs of the main loop -/

/-- The scheduler and the station after so many passes of the main loop entered at `s`, if it goes
    on after each of them: if there is no error, the user does not leave and the limit on cycles is
    not found reached. -/
def afterPasses (limit : Option Nat) (find : Nat → Poll) (s : Station) :
    Nat → Option (Scheduler × Station)
  | 0 => some (Scheduler.start s.rates s.clock, s)
  | k + 1 =>
    match afterPasses limit find s k with
    | none => none
    | some (scheduler, st) =>
      match pass limit (find k) scheduler st with
      | (.ok (.inr scheduler'), st') => some (scheduler', st')
      | (.ok (.inl _), _) => none
      | (.error _, _) => none

theorem afterPasses_succ {limit : Option Nat} {find : Nat → Poll} {s st' : Station} {k : Nat}
    {scheduler' : Scheduler} (h : afterPasses limit find s (k + 1) = some (scheduler', st')) :
    ∃ scheduler st, afterPasses limit find s k = some (scheduler, st) ∧
      pass limit (find k) scheduler st = (.ok (.inr scheduler'), st') := by
  unfold afterPasses at h
  split at h
  · cases h
  next scheduler st hbefore =>
  split at h
  · next hpass =>
    obtain ⟨rfl, rfl⟩ := Prod.mk.inj (Option.some.inj h)
    exact ⟨scheduler, st, hbefore, hpass⟩
  · cases h
  · cases h

theorem afterPasses_of_le {limit : Option Nat} {find : Nat → Poll} {s : Station} {j k : Nat}
    {r : Scheduler × Station} (h : afterPasses limit find s k = some r) (hj : j ≤ k) :
    ∃ r', afterPasses limit find s j = some r' := by
  induction k generalizing r with
  | zero =>
    obtain rfl := Nat.le_zero.mp hj
    exact ⟨r, h⟩
  | succ k ih =>
    rcases Nat.lt_or_eq_of_le hj with hlt | rfl
    · obtain ⟨_, _, hbefore, -⟩ := afterPasses_succ h
      exact ih hbefore (by omega)
    · exact ⟨r, h⟩

/-- The main loop makes these passes, and goes on from where they lead. -/
theorem mainLoop_eq_passes {limit : Option Nat} {polls : Polls} {s st : Station} {k : Nat}
    {scheduler : Scheduler} (h : afterPasses limit polls.find s k = some (scheduler, st))
    (hk : k ≤ polls.count) :
    mainLoop limit polls s = passes limit polls.find (polls.count - k) k scheduler st := by
  induction k generalizing scheduler st with
  | zero =>
    obtain ⟨rfl, rfl⟩ := Prod.mk.inj (Option.some.inj h)
    rfl
  | succ k ih =>
    obtain ⟨before, st₀, hbefore, hpass⟩ := afterPasses_succ h
    have hleft : polls.count - k = polls.count - (k + 1) + 1 := by omega
    rw [ih hbefore (by omega), hleft, passes, hpass]

end Station

end Chip8
