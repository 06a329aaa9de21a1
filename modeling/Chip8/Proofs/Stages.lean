import Chip8.Proofs.Passes
import Chip8.Proofs.Presses

set_option autoImplicit false

/-! # Stages of the main loop

The main loop is followed from one operation to the next (`Station.Reaches`): where it stands, in
which pass, and what is still due there. From every stage of a pass, what is left of the pass is
what the whole pass comes to (`Station.Reaches.pass_eq`), so a pass after which the main loop goes
on is one in which nobody asks to leave, no operation fails and the limit on cycles is not found
reached (`Station.exists_afterPasses_iff`). -/

namespace Chip8

/-- Where the main loop stands. -/
inductive Stage where
  /-- At the start of a pass. -/
  | polling (scheduler : Scheduler)
  /-- With so many events still due before the sleep at the end of a pass. -/
  | running (due : Ticks) (scheduler : Scheduler)

namespace Station

/-- The operation that the main loop begins next in the pass `k`, the first one being zero. There is
    none where it sleeps and where it finds the limit on cycles reached. -/
def next? (limit : Option Nat) (find : Nat → Poll) (k : Nat) : Stage → Station → Option Operation
  | .polling _, _ => some (.poll (find k))
  | .running ⟨_ + 1, _⟩ _, st => if st.atLimit limit then none else some .cycle
  | .running ⟨0, _ + 1⟩ _, st => some (.interrupt st.devices)
  | .running ⟨0, 0⟩ _, _ => none

/-- The main loop, entered at `s`, gets to a stage in the pass `k`, and this is the station then. -/
inductive Reaches (limit : Option Nat) (find : Nat → Poll) (s : Station) :
    Nat → Stage → Station → Prop where
  | enter : Reaches limit find s 0 (.polling (Scheduler.start s.rates s.clock)) s
  | poll {k : Nat} {scheduler : Scheduler} {st st' : Station} :
      Reaches limit find s k (.polling scheduler) st →
      st.poll (find k) = (.ok (), st') → (find k).quit = false →
      Reaches limit find s k
        (.running (scheduler.poll st'.clock).1 (scheduler.poll st'.clock).2) st'
  | cycle {k due frames : Nat} {scheduler : Scheduler} {st st' : Station} :
      Reaches limit find s k (.running ⟨due + 1, frames⟩ scheduler) st →
      st.atLimit limit = false → st.cycle = (.ok (), st') →
      Reaches limit find s k (.running ⟨due, frames⟩ scheduler) st'
  | interrupt {k frames : Nat} {scheduler : Scheduler} {st st' : Station} :
      Reaches limit find s k (.running ⟨0, frames + 1⟩ scheduler) st →
      st.interrupt = (.ok (), st') →
      Reaches limit find s k (.running ⟨0, frames⟩ scheduler) st'
  | sleep {k : Nat} {scheduler : Scheduler} {st : Station} :
      Reaches limit find s k (.running ⟨0, 0⟩ scheduler) st →
      Reaches limit find s (k + 1) (.polling scheduler) (st.sleep scheduler.untilNext)

/-- The main loop finds in the pass `k` that the limit on cycles has been reached. -/
def FindsLimit (limit : Option Nat) (find : Nat → Poll) (s : Station) (k : Nat) (st : Station) :
    Prop :=
  ∃ due frames scheduler,
    Reaches limit find s k (.running ⟨due + 1, frames⟩ scheduler) st ∧ st.atLimit limit = true

/-- No operation fails that the main loop begins in the pass `k`. -/
def NothingFailsIn (limit : Option Nat) (find : Nat → Poll) (s : Station) (k : Nat) : Prop :=
  ∀ stage st op, Reaches limit find s k stage st → next? limit find k stage st = some op →
    (st.perform op).1 = .ok ()

/-- Nothing keeps the main loop from going on after the pass `k`, if it gets there. -/
structure GoesOn (limit : Option Nat) (find : Nat → Poll) (s : Station) (k : Nat) : Prop where
  /-- The poll does not find that the user asks to leave. -/
  stays : (find k).quit = false
  works : NothingFailsIn limit find s k
  /-- The limit on cycles is not found reached. -/
  below : ∀ st, ¬ FindsLimit limit find s k st

variable {limit : Option Nat} {find : Nat → Poll} {s st st' : Station} {k : Nat} {stage : Stage}
  {scheduler scheduler' : Scheduler} {due : Ticks} {p : Poll}

theorem next?_cases {op : Operation} (h : next? limit find k stage st = some op) :
    op = .poll (find k) ∨ (op = .cycle ∧ st.atLimit limit = false) ∨
      op = .interrupt st.devices := by
  unfold next? at h
  split at h
  · exact .inl (Option.some.inj h).symm
  · split at h
    · cases h
    · next hlimit =>
      exact .inr (.inl ⟨(Option.some.inj h).symm, Bool.eq_false_iff.mpr hlimit⟩)
  · exact .inr (.inr (Option.some.inj h).symm)
  · cases h

/-! ## What is left of a pass -/

/-- What a pass with the poll `p` comes to from a stage on. -/
def finishPass (limit : Option Nat) (p : Poll) (stage : Stage) (st : Station) :
    Except RunError (Nat ⊕ Scheduler) × Station :=
  match stage with
  | .polling scheduler => pass limit p scheduler st
  | .running due scheduler =>
    match runCycles limit due.cycles st with
    | (.error e, st) => (.error e, st)
    | (.ok true, st) => (.ok (.inl st.console.cycles), st)
    | (.ok false, st) =>
      match times interrupt due.frames st with
      | (.error e, st) => (.error e, st)
      | (.ok (), st) => (.ok (.inr scheduler), st.sleep scheduler.untilNext)

theorem finishPass_poll (hpoll : st.poll p = (.ok (), st')) (hquit : p.quit = false) :
    finishPass limit p (.polling scheduler) st
      = finishPass limit p
          (.running (scheduler.poll st'.clock).1 (scheduler.poll st'.clock).2) st' := by
  show pass limit p scheduler st = _
  rw [pass, hpoll]
  exact if_neg (Bool.eq_false_iff.mp hquit)

theorem finishPass_cycle {cycles frames : Nat} (hlimit : st.atLimit limit = false)
    (hcycle : st.cycle = (.ok (), st')) :
    finishPass limit p (.running ⟨cycles + 1, frames⟩ scheduler) st
      = finishPass limit p (.running ⟨cycles, frames⟩ scheduler) st' := by
  simp only [finishPass, runCycles, hlimit, hcycle, Bool.false_eq_true, if_false]

theorem finishPass_interrupt {frames : Nat} (hframe : st.interrupt = (.ok (), st')) :
    finishPass limit p (.running ⟨0, frames + 1⟩ scheduler) st
      = finishPass limit p (.running ⟨0, frames⟩ scheduler) st' := by
  simp only [finishPass, runCycles, times, hframe]

/-- Where the limit is found reached the pass is over, and only a record of it is left. -/
theorem finishPass_of_atLimit {cycles frames : Nat} (hlimit : st.atLimit limit = true) :
    finishPass limit p (.running ⟨cycles + 1, frames⟩ scheduler) st
      = (.ok (.inl st.console.cycles), st.note [.cycleLimit]) := by
  simp only [finishPass, runCycles, hlimit, if_true, console_note]

/-- From wherever the main loop gets in a pass, what is left of the pass is what it comes to. -/
theorem Reaches.pass_eq (h : Reaches limit find s k stage st) :
    ∃ scheduler₀ st₀, afterPasses limit find s k = some (scheduler₀, st₀) ∧
      pass limit (find k) scheduler₀ st₀ = finishPass limit (find k) stage st := by
  induction h with
  | enter => exact ⟨_, _, rfl, rfl⟩
  | poll _ hpoll hquit ih => rwa [finishPass_poll hpoll hquit] at ih
  | cycle _ hlimit hcycle ih => rwa [finishPass_cycle hlimit hcycle] at ih
  | interrupt _ hframe ih => rwa [finishPass_interrupt hframe] at ih
  | sleep _ ih =>
    obtain ⟨scheduler₀, st₀, hbefore, hpass⟩ := ih
    refine ⟨_, _, ?_, rfl⟩
    simp only [afterPasses, hbefore, hpass]
    rfl

/-! ## When the main loop goes on -/

/-- A pass that has been polled for comes to its sleep unless it finds the limit reached. -/
theorem NothingFailsIn.finish (hok : NothingFailsIn limit find s k)
    (h : Reaches limit find s k (.running due scheduler) st) :
    (∃ st', FindsLimit limit find s k st') ∨
      ∃ st', Reaches limit find s k (.running ⟨0, 0⟩ scheduler) st' := by
  obtain ⟨cycles, frames⟩ := due
  induction cycles generalizing st with
  | succ cycles ih =>
    cases hlimit : st.atLimit limit with
    | true => exact .inl ⟨st, cycles, frames, scheduler, h, hlimit⟩
    | false =>
      have hcycle := hok _ _ .cycle h (by rw [next?, hlimit]; rfl)
      exact ih (h.cycle hlimit (Prod.ext hcycle rfl))
  | zero =>
    induction frames generalizing st with
    | succ frames ih =>
      have hframe := hok _ _ (.interrupt st.devices) h rfl
      exact ih (h.interrupt (Prod.ext hframe rfl))
    | zero => exact .inr ⟨st, h⟩

theorem GoesOn.reaches_next (hgoes : GoesOn limit find s k)
    (h : Reaches limit find s k (.polling scheduler) st) :
    ∃ scheduler' st', Reaches limit find s (k + 1) (.polling scheduler') st' := by
  have hpoll := hgoes.works _ _ (.poll (find k)) h rfl
  rcases hgoes.works.finish (h.poll (Prod.ext hpoll rfl) hgoes.stays) with
    ⟨st', hfound⟩ | ⟨st', hdone⟩
  · exact absurd hfound (hgoes.below st')
  · exact ⟨_, _, hdone.sleep⟩

theorem reaches_of_goesOn (h : ∀ i, i < k → GoesOn limit find s i) :
    ∃ scheduler st, Reaches limit find s k (.polling scheduler) st := by
  induction k with
  | zero => exact ⟨_, _, .enter⟩
  | succ k ih =>
    obtain ⟨scheduler, st, hreach⟩ := ih fun i hi => h i (by omega)
    exact (h k (Nat.lt_succ_self k)).reaches_next hreach

theorem stays_of_pass (h : pass limit p scheduler st = (.ok (.inr scheduler'), st')) :
    p.quit = false := by
  unfold pass at h
  split at h
  · cases h
  · split at h
    · cases h
    · next hquit => exact Bool.eq_false_iff.mpr hquit

/-- In a pass after which the main loop goes on, the next operation does not fail. -/
theorem works_of_finishPass
    (h : finishPass limit (find k) stage st = (.ok (.inr scheduler'), st')) {op : Operation}
    (hnext : next? limit find k stage st = some op) : (st.perform op).1 = .ok () := by
  unfold next? at hnext
  split at hnext
  · obtain rfl := Option.some.inj hnext
    simp only [finishPass, pass] at h
    split at h
    · cases h
    · next hpoll => exact congrArg Prod.fst hpoll
  · split at hnext
    · cases hnext
    next hlimit =>
    obtain rfl := Option.some.inj hnext
    simp only [finishPass, runCycles, if_neg hlimit] at h
    rcases hcycle : st.cycle with ⟨e | _, st₁⟩
    · rw [hcycle] at h
      cases h
    · exact congrArg Prod.fst hcycle
  · obtain rfl := Option.some.inj hnext
    simp only [finishPass, runCycles, times] at h
    rcases hframe : st.interrupt with ⟨e | _, st₁⟩
    · rw [hframe] at h
      cases h
    · exact congrArg Prod.fst hframe
  · cases hnext

theorem goesOn_of_afterPasses {r : Scheduler × Station}
    (h : afterPasses limit find s (k + 1) = some r) : GoesOn limit find s k := by
  obtain ⟨scheduler₀, st₀, hbefore, hpass⟩ := afterPasses_succ h
  -- the rest of the pass from any of its stages comes to that as well
  have hrest {stage : Stage} {st : Station} (hreach : Reaches limit find s k stage st) :
      finishPass limit (find k) stage st = (.ok (.inr r.1), r.2) := by
    obtain ⟨_, _, hbefore', heq⟩ := hreach.pass_eq
    obtain ⟨rfl, rfl⟩ := Prod.mk.inj (Option.some.inj (hbefore.symm.trans hbefore'))
    rw [← heq, hpass]
  exact {
    stays := stays_of_pass hpass
    works := fun stage st op hreach hnext => works_of_finishPass (hrest hreach) hnext
    below := by
      rintro st ⟨cycles, frames, scheduler, hreach, hlimit⟩
      have hover := hrest hreach
      rw [finishPass_of_atLimit hlimit] at hover
      cases hover }

/-- The main loop goes on after the first `k` passes iff nobody asks to leave in any of them,
    nothing fails that is begun in them and the limit on cycles is not found reached. -/
theorem exists_afterPasses_iff :
    (∃ r, afterPasses limit find s k = some r) ↔ ∀ i, i < k → GoesOn limit find s i := by
  constructor
  · rintro ⟨r, hrun⟩ i hi
    obtain ⟨_, hearlier⟩ := afterPasses_of_le hrun (show i + 1 ≤ k from hi)
    exact goesOn_of_afterPasses hearlier
  · intro h
    obtain ⟨scheduler, st, hreach⟩ := reaches_of_goesOn h
    obtain ⟨scheduler₀, st₀, hrun, -⟩ := hreach.pass_eq
    exact ⟨_, hrun⟩

end Station

end Chip8
