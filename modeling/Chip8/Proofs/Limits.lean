import Chip8.Proofs.Timing
import Chip8.Proofs.Waiting

set_option autoImplicit false

/-! # The limit on cycles

The main loop checks the limit only before a cycle that is due, so a limit that has been met is
found so when one more cycle falls due (`Station.FindsLimit`). Whether that comes is a matter of
time: every pass but the first one finds that the clock has moved on, since the one before has slept
until something was due, and the time that the scheduler accounts for reaches the cadence of the
cycles. So many cycles have room for so many nanoseconds only, and for no more passes than that
(`Station.Reaches.passes_le`). -/

namespace Chip8

namespace Station

/-- No operation fails that the main loop begins. -/
def NothingFails (limit : Option Nat) (find : Nat → Poll) (s : Station) : Prop :=
  ∀ k stage st op, Reaches limit find s k stage st → next? limit find k stage st = some op →
    (st.perform op).1 = .ok ()

variable {limit : Option Nat} {find : Nat → Poll} {s st st' : Station} {k M : Nat} {stage : Stage}
  {scheduler : Scheduler}

/-- When the limit is found reached the main loop is over, and only a record of it is left. -/
theorem mainLoop_of_findsLimit {count : Nat} (h : FindsLimit limit find s k st) (hk : k < count) :
    mainLoop limit { count, find } s = (.ok st.console.cycles, st.note [.cycleLimit]) := by
  obtain ⟨due, frames, scheduler, hreach, hlimit⟩ := h
  obtain ⟨scheduler₀, st₀, hbefore, hpass⟩ := hreach.pass_eq
  rw [finishPass_of_atLimit hlimit] at hpass
  have hleft : count - k = count - (k + 1) + 1 := by omega
  rw [mainLoop_eq_passes hbefore (Nat.le_of_lt hk), hleft, passes, hpass]

/-! ## Invariants of the main loop -/

/-- A property of the station that is kept by everything that the main loop does. -/
structure Invariant (limit : Option Nat) (find : Nat → Poll) (P : Station → Prop) : Prop where
  poll : ∀ i st, P st → P (st.poll (find i)).2
  cycle : ∀ st, st.atLimit limit = false → P st → P st.cycle.2
  interrupt : ∀ st, P st → P st.interrupt.2
  note : ∀ st records, P st → P (st.note records)
  sleep : ∀ st duration, P st → P (st.sleep duration)

namespace Invariant

variable {P : Station → Prop}

theorem perform (h : Invariant limit find P) {op : Operation} (hst : P st)
    (hnext : next? limit find k stage st = some op) : P (st.perform op).2 := by
  rcases next?_cases hnext with rfl | ⟨rfl, hlimit⟩ | rfl
  · exact h.poll _ _ hst
  · exact h.cycle _ hlimit hst
  · exact h.interrupt _ hst

theorem reaches (h : Invariant limit find P) (hs : P s) (hreach : Reaches limit find s k stage st) :
    P st := by
  induction hreach with
  | enter => exact hs
  | @poll k _ st _ _ hpoll _ ih =>
    have hnext := h.poll k st ih
    rw [hpoll] at hnext
    exact hnext
  | @cycle _ _ _ _ st _ _ hlimit hcycle ih =>
    have hnext := h.cycle st hlimit ih
    rw [hcycle] at hnext
    exact hnext
  | @interrupt _ _ _ st _ _ hframe ih =>
    have hnext := h.interrupt st ih
    rw [hframe] at hnext
    exact hnext
  | sleep _ ih => exact h.sleep _ _ ih

theorem runCycles (h : Invariant limit find P) (n : Nat) (hst : P st) :
    P (runCycles limit n st).2 := by
  induction n generalizing st with
  | zero => exact hst
  | succ n ih =>
    unfold Station.runCycles
    split
    · exact h.note _ _ hst
    · next hlimit =>
      have hran := h.cycle st (Bool.eq_false_iff.mpr hlimit) hst
      generalize st.cycle = ran at hran ⊢
      obtain ⟨e | _, st'⟩ := ran
      · exact hran
      · exact ih hran

theorem frames (h : Invariant limit find P) (n : Nat) (hst : P st) :
    P (times Station.interrupt n st).2 := by
  induction n generalizing st with
  | zero => exact hst
  | succ n ih =>
    have hdrew := h.interrupt st hst
    unfold times
    generalize st.interrupt = drew at hdrew ⊢
    obtain ⟨e | _, st'⟩ := drew
    · exact hdrew
    · exact ih hdrew

theorem pass (h : Invariant limit find P) (hst : P st) :
    P (pass limit (find k) scheduler st).2 := by
  have hpolled := h.poll k st hst
  unfold Station.pass
  generalize st.poll (find k) = polled at hpolled ⊢
  obtain ⟨e | _, st₁⟩ := polled
  · exact hpolled
  dsimp only
  split
  · exact h.note _ _ hpolled
  have hran := h.runCycles (scheduler.poll st₁.clock).1.cycles hpolled
  generalize Station.runCycles limit (scheduler.poll st₁.clock).1.cycles st₁ = ran at hran ⊢
  obtain ⟨e | _ | _, st₂⟩ := ran
  · exact hran
  · have hdrew := h.frames (scheduler.poll st₁.clock).1.frames hran
    dsimp only at hdrew ⊢
    generalize times Station.interrupt (scheduler.poll st₁.clock).1.frames st₂ = drew at hdrew ⊢
    obtain ⟨e | _, st₃⟩ := drew
    · exact hdrew
    · exact h.sleep _ _ hdrew
  · exact hran

theorem passes (h : Invariant limit find P) (hlast : ∀ st, P st → P st.lastPass.2) (left : Nat)
    (hst : P st) : P (passes limit find left k scheduler st).2 := by
  induction left generalizing k scheduler st with
  | zero => exact hlast _ hst
  | succ left ih =>
    have hpassed : P (Station.pass limit (find k) scheduler st).2 := h.pass hst
    unfold Station.passes
    generalize Station.pass limit (find k) scheduler st = passed at hpassed ⊢
    obtain ⟨e | cycles | scheduler', st'⟩ := passed
    · exact hpassed
    · exact hpassed
    · exact ih hpassed

end Invariant

/-! ## The count of cycles -/

theorem atLimit_iff : st.atLimit (some M) = true ↔ M ≤ st.console.cycles := by
  simp [atLimit]

@[simp] theorem cycles_poll (s : Station) (p : Poll) :
    (s.poll p).2.console.cycles = s.console.cycles := by
  rw [console_poll, apply_ite Console.cycles]
  simp only [Console.poll, ite_self]

theorem cycles_cycle_le (s : Station) : s.cycle.2.console.cycles ≤ s.console.cycles + 1 := by
  rw [console_cycle, Console.cycle]
  split
  · exact Nat.le_succ _
  · exact Nat.le_refl _

@[simp] theorem cycles_interrupt (s : Station) :
    s.interrupt.2.console.cycles = s.console.cycles := by
  simp only [interrupt]
  split
  · rfl
  · rw [console_note]
    split <;> rfl

@[simp] theorem cycles_lastPass (s : Station) :
    s.lastPass.2.console.cycles = s.console.cycles := by
  simp only [lastPass, console_note, Console.poll, record]

/-- No more cycles are run than the limit allows, whatever else there is to come. -/
theorem invariant_cycles_le {most : Nat} (h : M ≤ most) :
    Invariant (some M) find fun st => st.console.cycles ≤ most where
  poll i st hst := by rwa [cycles_poll]
  cycle st hlimit _ := by
    have hone := st.cycles_cycle_le
    have hbelow : ¬ M ≤ st.console.cycles := by
      rw [← atLimit_iff, hlimit]
      exact Bool.false_ne_true
    omega
  interrupt st hst := by rwa [cycles_interrupt]
  note st records hst := by rwa [console_note]
  sleep _ _ hst := hst

/-! ## The work that is done -/

/-- What has been done from one station to another, however the clock has moved. -/
structure Worked (s st : Station) (work : List Work) : Prop where
  work_eq : st.work = s.work ++ work
  tally_eq : ∀ b, st.tally b = s.tally b + (timesOf b work).length

theorem Did.worked {work : List Work} (h : Did s st work) : Worked s st work :=
  ⟨h.work_eq, h.tally_eq⟩

theorem Worked.trans {work more : List Work} (h : Worked s st work) (h' : Worked st st' more) :
    Worked s st' (work ++ more) where
  work_eq := by rw [h'.work_eq, h.work_eq, List.append_assoc]
  tally_eq b := by rw [h'.tally_eq, h.tally_eq, timesOf_append, List.length_append, Nat.add_assoc]

theorem worked_poll {p : Poll} (h : st.poll p = (.ok (), st')) : Worked st st' [] where
  work_eq := (did_poll h).work_eq
  tally_eq b := ((did_poll h).tally_eq b).trans (by cases b <;> rfl)

theorem Reaches.exists_worked (h : Reaches limit find s k stage st) :
    ∃ work, Worked s st work := by
  induction h with
  | enter => exact ⟨[], (Did.refl s).worked⟩
  | poll _ hpoll _ ih =>
    obtain ⟨work, hwork⟩ := ih
    exact ⟨_, hwork.trans (worked_poll hpoll)⟩
  | cycle _ _ hcycle ih =>
    obtain ⟨work, hwork⟩ := ih
    exact ⟨_, hwork.trans (did_cycle hcycle).worked⟩
  | interrupt _ hframe ih =>
    obtain ⟨work, hwork⟩ := ih
    exact ⟨_, hwork.trans (did_interrupt hframe).worked⟩
  | sleep _ ih =>
    obtain ⟨work, hwork⟩ := ih
    refine ⟨work, hwork.work_eq, fun b => ?_⟩
    cases b with
    | cycle => exact hwork.tally_eq .cycle
    | frame => exact hwork.tally_eq .frame

/-! ## The passes that the cycles have room for -/

/-- The scheduler has accounted for a span of time since the main loop was entered at `s`, and all
    but `owed` of the cycles that fell due in it have been run. -/
structure Accounts (s : Station) (span owed : Nat) (scheduler : Scheduler) (st : Station) :
    Prop where
  tracks : ∀ b, (scheduler.of b).Tracks (s.rates.period b) (span / s.rates.period b) span
  cycles_eq : st.console.cycles + owed = s.console.cycles + span / s.rates.period .cycle

/-- The time accounted for is no less than a nanosecond for each pass that was slept through before
    the last measure of the clock. -/
def Paced (s : Station) (k span : Nat) : Stage → Station → Prop
  | .polling scheduler, st =>
    Accounts s span 0 scheduler st ∧ k ≤ span + 1 ∧ (k = 0 ∨ scheduler.last < st.clock)
  | .running due scheduler, st =>
    Accounts s span due.cycles scheduler st ∧ k ≤ span ∧ scheduler.last = st.clock

namespace Accounts

variable {span owed : Nat}

theorem start (hrates : s.rates.Sane) : Accounts s 0 0 (Scheduler.start s.rates s.clock) s where
  tracks b := by
    rw [Nat.zero_div]
    exact Scheduler.tracks_start hrates _ b
  cycles_eq := by rw [Nat.zero_div]

/-- A measure of the clock accounts for what it finds, and owes the cycles that it finds due. -/
theorem poll (h : Accounts s span 0 scheduler st) (now : Int)
    (hcycles : st'.console.cycles = st.console.cycles) :
    Accounts s (span + scheduler.elapsed now) (scheduler.poll now).1.cycles
      (scheduler.poll now).2 st' := by
  have htracks (b) := Scheduler.tracks_poll (h.tracks b) now
  have hfired (b) := (htracks b).fired_eq
  exact {
    tracks := fun b => hfired b ▸ htracks b
    cycles_eq := by
      have howed := h.cycles_eq
      have hcycle := hfired .cycle
      simp only [Ticks.of] at hcycle
      omega }

/-- A cycle pays off one that is owed. -/
theorem cycle (h : Accounts s span (owed + 1) scheduler st)
    (hcycles : st'.console.cycles = st.console.cycles + 1) :
    Accounts s span owed scheduler st' where
  tracks := h.tracks
  cycles_eq := by
    have howed := h.cycles_eq
    omega

end Accounts

theorem Reaches.exists_paced (hrates : s.rates.Sane) (h : Reaches limit find s k stage st) :
    ∃ span, Paced s k span stage st := by
  induction h with
  | enter => exact ⟨0, .start hrates, Nat.zero_le _, .inl rfl⟩
  | @poll k scheduler st st' _ hpoll _ ih =>
    obtain ⟨span, haccounts, hk, hslept⟩ := ih
    have hdid := did_poll hpoll
    have hclock : st'.clock = st.clock + (find k).busy := hdid.clock_eq
    refine ⟨span + scheduler.elapsed st'.clock, haccounts.poll _ (hdid.tally_eq .cycle), ?_, rfl⟩
    -- the sleep before has left something to account for
    rcases hslept with rfl | hlast
    · exact Nat.zero_le _
    · have hmeasured : 0 < scheduler.elapsed st'.clock := by
        simp only [Scheduler.elapsed, maxCatchUp]
        omega
      omega
  | cycle _ _ hcycle ih =>
    obtain ⟨span, haccounts, hk, hlast⟩ := ih
    have hdid := did_cycle hcycle
    exact ⟨span, haccounts.cycle (hdid.tally_eq .cycle), hk, hlast.trans (by rw [hdid.clock_eq])⟩
  | @interrupt _ _ _ st st' _ hframe ih =>
    obtain ⟨span, haccounts, hk, hlast⟩ := ih
    have hdid := did_interrupt hframe
    have hcycles : st'.console.cycles = st.console.cycles := hdid.tally_eq .cycle
    refine ⟨span, ⟨haccounts.tracks, ?_⟩, hk, hlast.trans (by rw [hdid.clock_eq])⟩
    rw [hcycles]
    exact haccounts.cycles_eq
  | @sleep k scheduler st _ ih =>
    obtain ⟨span, haccounts, hk, hlast⟩ := ih
    have hpos := Scheduler.untilNext_pos haccounts.tracks
    refine ⟨span, ⟨haccounts.tracks, haccounts.cycles_eq⟩, by omega, .inr ?_⟩
    show scheduler.last < (st.clock + scheduler.untilNext : Nat)
    omega

/-- There are no more passes than the cycles up to the limit, and one more, have room for. -/
theorem Reaches.passes_le (hrates : s.rates.Sane)
    (h : Reaches (some M) find s k (.polling scheduler) st) :
    k ≤ (M - s.console.cycles + 1) * s.rates.period .cycle := by
  obtain ⟨span, haccounts, hk, -⟩ := h.exists_paced hrates
  have hle := (invariant_cycles_le (Nat.le_max_right s.console.cycles M)).reaches
    (Nat.le_max_left _ _) h
  have hcycles := haccounts.cycles_eq
  have hlt : span < (span / s.rates.period .cycle + 1) * s.rates.period .cycle := by
    have htracks := haccounts.tracks .cycle
    have hspan := htracks.conserved
    have hgathered := htracks.gathered_lt
    rw [Nat.add_mul, Nat.one_mul]
    omega
  have hfew : span / s.rates.period .cycle + 1 ≤ M - s.console.cycles + 1 := by omega
  calc k ≤ span + 1 := hk
    _ ≤ (span / s.rates.period .cycle + 1) * s.rates.period .cycle := hlt
    _ ≤ (M - s.console.cycles + 1) * s.rates.period .cycle := Nat.mul_le_mul_right _ hfew

/-! ## Coming to the limit -/

/-- Pass after pass, the main loop goes on until it finds the limit reached. -/
theorem NothingFails.passes (hok : NothingFails limit find s) (hquit : ∀ i, (find i).quit = false)
    (k : Nat) :
    (∃ j < k, ∃ st, FindsLimit limit find s j st) ∨
      ∃ scheduler st, Reaches limit find s k (.polling scheduler) st := by
  induction k with
  | zero => exact .inr ⟨_, _, .enter⟩
  | succ k ih =>
    rcases ih with ⟨j, hj, hfound⟩ | ⟨scheduler, st, hreach⟩
    · exact .inl ⟨j, by omega, hfound⟩
    have hpoll := hok _ _ _ (.poll (find k)) hreach rfl
    have hin : NothingFailsIn limit find s k := hok k
    rcases hin.finish (hreach.poll (Prod.ext hpoll rfl) (hquit k)) with hfound | ⟨st', hdone⟩
    · exact .inl ⟨k, Nat.lt_succ_self k, hfound⟩
    · exact .inr ⟨_, _, hdone.sleep⟩

/-- **The limit on cycles is exact and always reached.** Let the main loop be entered with any limit
    `M`, whatever the polls of the keyboard find and however long they take. (1) Wherever it gets,
    and after whatever it begins there, there have been no more cycles than `M`, or than at the
    start if those are more; nor are there at the end. (2) If nobody asks to leave and nothing
    fails, it returns that number after no more passes than so many cycles have room for, and has
    run exactly the cycles that were missing. (3) Once the limit is found reached, all that is left
    to it is to write a record of it: no cycle, no frame and no sleep is to come. -/
theorem cycle_limit_exact (M : Nat) (find : Nat → Poll) (s : Station) (hrates : s.rates.Sane) :
    let most := max s.console.cycles M
    (∀ k stage st, Reaches (some M) find s k stage st → st.console.cycles ≤ most ∧
      ∀ op, next? (some M) find k stage st = some op → (st.perform op).2.console.cycles ≤ most) ∧
    (∀ count, (mainLoop (some M) { count, find } s).2.console.cycles ≤ most) ∧
    ((∀ i, (find i).quit = false) → NothingFails (some M) find s →
      ∃ k ≤ (M - s.console.cycles + 1) * s.rates.period .cycle, ∃ st work,
        FindsLimit (some M) find s k st ∧ st.work = s.work ++ work ∧
        (timesOf .cycle work).length = M - s.console.cycles ∧
        ∀ count, k < count →
          mainLoop (some M) { count, find } s = (.ok most, st.note [.cycleLimit])) ∧
    ∀ k st, FindsLimit (some M) find s k st →
      Did st (st.note [.cycleLimit]) [] ∧
      ∀ count, k < count →
        mainLoop (some M) { count, find } s = (.ok st.console.cycles, st.note [.cycleLimit]) := by
  intro most
  have hinvariant : Invariant (some M) find fun st => st.console.cycles ≤ most :=
    invariant_cycles_le (Nat.le_max_right _ _)
  have hs : s.console.cycles ≤ most := Nat.le_max_left _ _
  refine ⟨?_, ?_, ?_, ?_⟩
  · intro k stage st hreach
    have hst := hinvariant.reaches hs hreach
    exact ⟨hst, fun op hnext => hinvariant.perform hst hnext⟩
  · intro count
    refine hinvariant.passes ?_ count hs
    intro st hst
    rwa [cycles_lastPass]
  · intro hquit hok
    -- one pass more than there is room for would be too many
    rcases hok.passes hquit ((M - s.console.cycles + 1) * s.rates.period .cycle + 1) with
      ⟨k, hk, st, hfound⟩ | ⟨scheduler, st, hreach⟩
    · have ⟨_, _, _, hreach, hlimit⟩ := hfound
      obtain ⟨work, hwork⟩ := hreach.exists_worked
      have htally : st.console.cycles = s.console.cycles + (timesOf .cycle work).length :=
        hwork.tally_eq .cycle
      have hle : st.console.cycles ≤ most := hinvariant.reaches hs hreach
      have hmost : st.console.cycles = most := by
        rw [atLimit_iff] at hlimit
        omega
      refine ⟨k, Nat.le_of_lt_succ hk, st, work, hfound, hwork.work_eq, by omega, ?_⟩
      intro count hlt
      rw [← hmost]
      exact mainLoop_of_findsLimit hfound hlt
    · have hle := hreach.passes_le hrates
      omega
  · intro k st hfound
    exact ⟨did_note st _, fun count hk => mainLoop_of_findsLimit hfound hk⟩

/-! ## A machine that waits for a key -/

/-- A station with a display that works, where no press ends the machine's wait for a key. -/
structure Idle (st : Station) : Prop where
  waits : st.console.machine.activity = .awaitingKey 0
  unpressed : st.console.keypad.newlyPressed = none
  display_eq : st.devices.display = none

theorem Idle.note (h : st.Idle) (records : List Record) : (st.note records).Idle := by
  unfold Station.note
  split
  · exact h
  · exact ⟨h.waits, h.unpressed, h.display_eq⟩

theorem Idle.cycle (h : st.Idle) : ∃ st', st.cycle = (.ok (), st') ∧ st'.Idle := by
  have hstep := Machine.step_of_quiet h.waits h.unpressed
  have hconsole : (st.record (.cycle st.clock)).console = st.console := rfl
  simp only [Station.cycle, hconsole, Console.cycle, hstep]
  refine ⟨_, rfl, Idle.note ?_ _⟩
  exact ⟨h.waits, rfl, h.display_eq⟩

theorem Idle.interrupt (h : st.Idle) : ∃ st', st.interrupt = (.ok (), st') ∧ st'.Idle := by
  have hdevices : (st.record (.draw st.clock st.console.machine.screen)).devices = st.devices := rfl
  simp only [Station.interrupt, hdevices, h.display_eq]
  refine ⟨_, rfl, Idle.note ?_ _⟩
  split <;> exact ⟨h.waits, h.unpressed, h.display_eq⟩

theorem invariant_idle : Invariant limit (fun _ => {}) Idle where
  poll _ _ h := ⟨h.waits, h.unpressed, h.display_eq⟩
  cycle st _ h := by
    obtain ⟨st', hcycle, hst'⟩ := h.cycle
    rw [hcycle]
    exact hst'
  interrupt st h := by
    obtain ⟨st', hframe, hst'⟩ := h.interrupt
    rw [hframe]
    exact hst'
  note _ _ h := h.note _
  sleep _ _ h := ⟨h.waits, h.unpressed, h.display_eq⟩

theorem nothingFails_of_idle (h : s.Idle) : NothingFails limit (fun _ => {}) s := by
  intro k stage st op hreach hnext
  have hst := invariant_idle.reaches h hreach
  rcases next?_cases hnext with rfl | ⟨rfl, -⟩ | rfl
  · rfl
  · obtain ⟨st', hcycle, -⟩ := hst.cycle
    exact congrArg Prod.fst hcycle
  · obtain ⟨st', hframe, -⟩ := hst.interrupt
    exact congrArg Prod.fst hframe

/-- Three seconds' passes are room enough for two cycles, at ten a second. -/
theorem waiting_stops_at_two :
    waiting.rates.Sane ∧ NothingFails (some 2) (fun _ => {}) waiting ∧ ∃ st,
      mainLoop (some 2) { count := 300000001, find := fun _ => {} } waiting = (.ok 2, st) ∧
      (timesOf .cycle st.work).length = 2 := by
  have hrates : waiting.rates.Sane := by
    intro b
    cases b <;> decide
  have hok : NothingFails (some 2) (fun _ => {}) waiting :=
    nothingFails_of_idle ⟨rfl, rfl, rfl⟩
  obtain ⟨-, -, hends, -⟩ := cycle_limit_exact 2 (fun _ => {}) waiting hrates
  obtain ⟨k, hk, st, work, -, hwork, hcount, hmain⟩ := hends (fun _ => rfl) hok
  have hroom : (2 - waiting.console.cycles + 1) * waiting.rates.period .cycle = 300000000 := by
    decide
  refine ⟨hrates, hok, _, hmain 300000001 (by omega), ?_⟩
  have hnoted : (st.note [.cycleLimit]).work = st.work ++ [] := (did_note st _).work_eq
  rw [hnoted, List.append_nil, hwork]
  exact hcount

end Station

end Chip8
