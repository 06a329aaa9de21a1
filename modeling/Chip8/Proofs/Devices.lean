import Chip8.Proofs.Faults
import Chip8.Proofs.Presses

set_option autoImplicit false

/-! # Devices that fail

Polls, cycles and interrupts come in any order, and any of the devices may fail at any of them. What
there is to see of a station, which is everything but the sound, changes as if there were no sound
device at all (`Station.sight_perform`): a sound device that refuses is only worth a record in the
log. All else is read off the few things that an operation can come to there. One that fails has
changed nothing of the machine, the keypad or the count of cycles. What the machine has been through
is a history of cycles and ticks, with one tick for every picture that the display has taken
(`Station.machine_after`, `Station.frames_after`). -/

namespace Chip8

def Event.picture? : Event → Option Screen
  | .draw _ screen => some screen
  | .peek _ | .lastPeek _ | .cycle _ | .tone _ _ => none

def Event.tone? : Event → Option Tone
  | .tone _ asked => some asked
  | .peek _ | .lastPeek _ | .cycle _ | .draw _ _ => none

/-- What there is to see of a station. -/
@[ext] structure Sight where
  machine : Machine
  keypad : Keypad
  cycles : Nat
  /-- How many pictures the display has taken. -/
  frames : Nat
  /-- The pictures that the display has been given. -/
  pictures : List Screen

/-- What comes of an operation where there is no sound device. -/
def Sight.perform (v : Sight) : Operation → Except RunError Unit × Sight
  | .poll p =>
    match p.failure with
    | some reason => (.error (.device reason), v)
    | none =>
      let seen := Keypad.ofKeys p.keys v.keypad
      let pending := seen.newlyPressed <|> v.keypad.newlyPressed
      (.ok (), { v with keypad := { seen with newlyPressed := pending } })
  | .cycle =>
    let s := v.machine.step v.keypad
    match s.fault with
    | some fault => (.error (.fault fault), v)
    | none =>
      (.ok (), { v with machine := s.machine, keypad := { v.keypad with newlyPressed := none },
                        cycles := v.cycles + 1 })
  | .interrupt devices =>
    let v := { v with pictures := v.pictures ++ [v.machine.screen] }
    match devices.display with
    | some reason => (.error (.device reason), v)
    | none => (.ok (), { v with machine := v.machine.tick, frames := v.frames + 1 })

/-- What there is to see of operations where there is no sound device: the result of each, and what
    there is after it. -/
def Sight.run (v : Sight) : List Operation → List (Except RunError Unit × Sight)
  | [] => []
  | op :: rest => v.perform op :: (v.perform op).2.run rest

/-- The operation with a sound device that does whatever it is asked. -/
def Operation.silent : Operation → Operation
  | .interrupt devices => .interrupt { display := devices.display }
  | .poll p => .poll p
  | .cycle => .cycle

theorem Sight.run_silent (v : Sight) (ops : List Operation) :
    v.run (ops.map Operation.silent) = v.run ops := by
  induction ops generalizing v with
  | nil => rfl
  | cons op rest ih =>
    have hop : v.perform op.silent = v.perform op := by cases op <;> rfl
    rw [List.map_cons, run, run, hop, ih]

theorem Console.console_cycle_of_fault {c : Console} {fault : Fault}
    (h : c.cycle.fault = some fault) : c.cycle.console = c := by
  cases hstep : (c.machine.step c.keypad).fault with
  | some fault => rw [cycle, hstep, Machine.machine_step_of_fault hstep]
  | none =>
    rw [cycle, hstep] at h
    cases h

namespace Station

/-- What the journal tells of one kind of events. -/
def told {α : Type} (s : Station) (kind : Event → Option α) : List α :=
  s.journal.events.toList.filterMap kind

def sight (s : Station) : Sight where
  machine := s.console.machine
  keypad := s.console.keypad
  cycles := s.console.cycles
  frames := s.frames
  pictures := s.told Event.picture?

variable {α : Type} {s s' : Station} {op : Operation}

/-! ## Single operations -/

theorem told_record (kind : Event → Option α) (s : Station) (e : Event) :
    (s.record e).told kind = s.told kind ++ (kind e).toList := by
  simp only [told, record, Array.toList_push, List.filterMap_append]
  cases hkind : kind e <;> simp [hkind]

theorem told_record_of_none {kind : Event → Option α} {e : Event} (h : kind e = none)
    (s : Station) : (s.record e).told kind = s.told kind := by
  rw [told_record, h]
  exact List.append_nil _

theorem told_note (kind : Event → Option α) (s : Station) (records : List Record) :
    (s.note records).told kind = s.told kind := by
  unfold note
  split <;> rfl

theorem sight_note (s : Station) (records : List Record) : (s.note records).sight = s.sight := by
  unfold note
  split <;> rfl

theorem sight_poll (s : Station) (p : Poll) :
    ((s.poll p).1, (s.poll p).2.sight) = s.sight.perform (.poll p) := by
  have htold : (s.record (.peek s.clock)).told Event.picture? = s.told Event.picture? :=
    told_record_of_none rfl s
  cases hfailure : p.failure with
  | some reason =>
    simp only [poll, hfailure, Sight.perform]
    exact Prod.ext rfl (Sight.ext rfl rfl rfl rfl htold)
  | none =>
    simp only [poll, hfailure, Sight.perform]
    exact Prod.ext rfl (Sight.ext rfl rfl rfl rfl htold)

theorem sight_cycle (s : Station) : (s.cycle.1, s.cycle.2.sight) = s.sight.perform .cycle := by
  have htold : (s.record (.cycle s.clock)).told Event.picture? = s.told Event.picture? :=
    told_record_of_none rfl s
  have hsight : s.sight.machine.step s.sight.keypad
      = s.console.machine.step s.console.keypad := rfl
  have hconsole : (s.record (.cycle s.clock)).console = s.console := rfl
  cases hstep : (s.console.machine.step s.console.keypad).fault with
  | some fault =>
    -- the machine that a cycle at fault leaves is the one that it has found
    have hsame := Machine.machine_step_of_fault hstep
    simp only [cycle, hconsole, Console.cycle, Sight.perform, hsight, hstep, hsame]
    exact Prod.ext rfl ((sight_note _ _).trans (Sight.ext rfl rfl rfl rfl htold))
  | none =>
    simp only [cycle, hconsole, Console.cycle, Sight.perform, hsight, hstep]
    exact Prod.ext rfl ((sight_note _ _).trans (Sight.ext rfl rfl rfl rfl htold))

theorem sight_interrupt (s : Station) :
    (s.interrupt.1, s.interrupt.2.sight) = s.sight.perform (.interrupt s.devices) := by
  have htold := told_record Event.picture? s (.draw s.clock s.console.machine.screen)
  have hdevices : (s.record (.draw s.clock s.console.machine.screen)).devices = s.devices := rfl
  cases hdisplay : s.devices.display with
  | some reason =>
    simp only [interrupt, hdevices, hdisplay, Sight.perform]
    exact Prod.ext rfl (Sight.ext rfl rfl rfl rfl htold)
  | none =>
    simp only [interrupt, hdevices, hdisplay, Sight.perform]
    refine Prod.ext rfl ((sight_note _ _).trans ?_)
    split
    · -- the request for a tone is one more event, but no picture
      exact Sight.ext rfl rfl rfl rfl ((told_record_of_none rfl _).trans htold)
    · exact Sight.ext rfl rfl rfl rfl htold

/-- What there is to see of a station changes as if there were no sound device. -/
theorem sight_perform (s : Station) (op : Operation) :
    ((s.perform op).1, (s.perform op).2.sight) = s.sight.perform op := by
  cases op with
  | poll p => exact s.sight_poll p
  | cycle => exact s.sight_cycle
  | interrupt devices => exact sight_interrupt { s with devices }

/-- An operation that fails changes nothing at the console, and the sound device is not asked for
    anything. -/
theorem console_perform_of_error {e : RunError} (h : s.perform op = (.error e, s')) :
    s'.console = s.console ∧ s'.told Event.tone? = s.told Event.tone? := by
  cases op with
  | poll p =>
    cases hfailure : p.failure with
    | some reason =>
      simp only [perform, poll, hfailure] at h
      obtain rfl := (Prod.mk.inj h).2
      exact ⟨rfl, told_record_of_none rfl _⟩
    | none =>
      simp only [perform, poll, hfailure] at h
      cases h
  | cycle =>
    simp only [perform, cycle] at h
    split at h
    · next fault hfault =>
      obtain rfl := (Prod.mk.inj h).2
      constructor
      · rw [console_note]
        exact Console.console_cycle_of_fault hfault
      · exact (told_note _ _ _).trans (told_record_of_none rfl _)
    · cases h
  | interrupt devices =>
    have hdevices : (({ s with devices } : Station).record
        (.draw s.clock s.console.machine.screen)).devices = devices := rfl
    cases hdisplay : devices.display with
    | some reason =>
      simp only [perform, interrupt, hdevices, hdisplay] at h
      obtain rfl := (Prod.mk.inj h).2
      exact ⟨rfl, told_record_of_none rfl _⟩
    | none =>
      simp only [perform, interrupt, hdevices, hdisplay] at h
      cases h

/-! ## Runs -/

/-- The station after operations, first one first, whether or not they succeed. -/
def after (s : Station) (ops : List Operation) : Station :=
  ops.foldl (fun s op => (s.perform op).2) s

/-- What there is to see of a run: the result of each operation, and the station after it. -/
def seen (s : Station) : List Operation → List (Except RunError Unit × Sight)
  | [] => []
  | op :: rest => ((s.perform op).1, (s.perform op).2.sight) :: (s.perform op).2.seen rest

/-- What an operation does with the machine, if it does anything with it. -/
def act? (s : Station) : Operation → Option Act
  | .poll _ => none
  | .cycle => some (.step s.console.keypad)
  | .interrupt devices => if devices.display.isNone then some .tick else none

/-- What operations do with the machine, first one first. -/
def acts (s : Station) : List Operation → List Act
  | [] => []
  | op :: rest => (s.act? op).toList ++ (s.perform op).2.acts rest

/-- The picture that an operation gives to the display. -/
def shown (s : Station) : Operation → List Screen
  | .poll _ | .cycle => []
  | .interrupt _ => [s.console.machine.screen]

theorem sight_next (s : Station) (op : Operation) :
    (s.perform op).2.sight = (s.sight.perform op).2 :=
  congrArg Prod.snd (s.sight_perform op)

/-- What an operation does to the machine, to the count of frames and to the pictures. -/
theorem effect_perform (s : Station) (op : Operation) :
    (s.perform op).2.console.machine = s.console.machine.after (s.act? op).toList ∧
    (s.perform op).2.frames = s.frames + (s.act? op).toList.countP Act.isTick ∧
    (s.perform op).2.told Event.picture? = s.told Event.picture? ++ s.shown op := by
  have hsight := s.sight_next op
  suffices heffect : (s.sight.perform op).2.machine = s.console.machine.after (s.act? op).toList ∧
      (s.sight.perform op).2.frames = s.frames + (s.act? op).toList.countP Act.isTick ∧
      (s.sight.perform op).2.pictures = s.told Event.picture? ++ s.shown op from
    ⟨(congrArg Sight.machine hsight).trans heffect.1,
      (congrArg Sight.frames hsight).trans heffect.2.1,
      (congrArg Sight.pictures hsight).trans heffect.2.2⟩
  have hnone : s.told Event.picture? = s.told Event.picture? ++ [] := (List.append_nil _).symm
  cases op with
  | poll p =>
    cases hfailure : p.failure <;> simp only [Sight.perform, hfailure] <;>
      exact ⟨rfl, rfl, hnone⟩
  | cycle =>
    simp only [Sight.perform]
    split
    · next hstep => exact ⟨(Machine.machine_step_of_fault hstep).symm, rfl, hnone⟩
    · exact ⟨rfl, rfl, hnone⟩
  | interrupt devices =>
    cases hdisplay : devices.display <;> simp only [Sight.perform, act?, hdisplay] <;>
      exact ⟨rfl, rfl, rfl⟩

/-- The machine has been through the cycles of a run and the ticks at the ends of its frames. -/
theorem machine_after (s : Station) (ops : List Operation) :
    (s.after ops).console.machine = s.console.machine.after (s.acts ops) := by
  induction ops generalizing s with
  | nil => rfl
  | cons op rest ih =>
    have hrest := ih (s.perform op).2
    rw [(s.effect_perform op).1] at hrest
    exact hrest.trans List.foldl_append.symm

/-- The display has taken a picture for each tick. -/
theorem frames_after (s : Station) (ops : List Operation) :
    (s.after ops).frames = s.frames + (s.acts ops).countP Act.isTick := by
  induction ops generalizing s with
  | nil => rfl
  | cons op rest ih =>
    have hrest := ih (s.perform op).2
    rw [(s.effect_perform op).2.1, Nat.add_assoc, ← List.countP_append] at hrest
    exact hrest

theorem seen_eq_run (s : Station) (ops : List Operation) : s.seen ops = s.sight.run ops := by
  induction ops generalizing s with
  | nil => rfl
  | cons op rest ih => rw [seen, Sight.run, ih, s.sight_next, ← s.sight_perform]

/-- **A device that fails cannot harm the machine.** Whatever polls, cycles and interrupts there
    have been at a station and whichever of its devices have failed at them: (1) an operation that
    fails leaves the machine, the keypad and the count of cycles as they were, and the sound device
    is not asked for anything; (2) the machine has been through the cycles and one tick for every
    picture that the display has taken, and every picture that the display is given is the screen at
    that moment, before the tick; (3) the same operations with a sound device that refuses at other
    points, or at none, have the same results, machines, keypads, counts and pictures throughout. -/
theorem device_failures_leave_machine (s : Station) (ops : List Operation) :
    let st := s.after ops
    (∀ op e st', st.perform op = (.error e, st') →
      st'.console = st.console ∧ st'.told Event.tone? = st.told Event.tone?) ∧
    (st.console.machine = s.console.machine.after (s.acts ops) ∧
      st.frames = s.frames + (s.acts ops).countP Act.isTick ∧
      (∀ op, (st.perform op).2.told Event.picture? = st.told Event.picture? ++ st.shown op) ∧
      ∀ devices, devices.display = none →
        ∃ st', st.perform (.interrupt devices) = (.ok (), st') ∧
          st'.console.machine = st.console.machine.tick ∧ st'.frames = st.frames + 1) ∧
    ∀ ops' : List Operation, ops'.map Operation.silent = ops.map Operation.silent →
      s.seen ops' = s.seen ops := by
  intro st
  refine ⟨?_, ⟨s.machine_after ops, s.frames_after ops, ?_, ?_⟩, ?_⟩
  · intro op e st' h
    exact console_perform_of_error h
  · intro op
    exact (st.effect_perform op).2.2
  · intro devices hdisplay
    have hact : st.act? (.interrupt devices) = some .tick := by simp [act?, hdisplay]
    obtain ⟨hmachine, hframes, -⟩ := st.effect_perform (.interrupt devices)
    have hresult := congrArg Prod.fst (st.sight_perform (.interrupt devices))
    simp only [Sight.perform, hdisplay] at hresult
    rw [hact] at hmachine hframes
    exact ⟨_, Prod.ext hresult rfl, hmachine, hframes⟩
  · intro ops' hsilent
    rw [seen_eq_run, seen_eq_run, ← Sight.run_silent, hsilent, Sight.run_silent]

/-- A frame whose picture is not taken and one whose beep is refused, with a press of the key 9 and
    a sound timer that has two ticks to go. -/
theorem refusals_out_of_sight :
    let m : Machine := { Machine.fresh {} 0 with
      registers := { Registers.reset with sound := 2 }, activity := .awaitingKey 2 }
    let s : Station := { console := { machine := m } }
    let unseen : Devices := { display := some "gone" }
    let ops : List Operation := [.poll { keys := [9] }, .interrupt unseen, .interrupt {}]
    let ops' : List Operation :=
      [.poll { keys := [9] }, .interrupt unseen, .interrupt { beep := some "busy" }]
    ((s.after ops).perform (.interrupt unseen)).2.console = (s.after ops).console ∧
    (s.after ops).console.machine = m.tick ∧ (s.after ops).frames = 1 ∧
    ops'.map Operation.silent = ops.map Operation.silent ∧ s.seen ops' = s.seen ops ∧
    (s.after ops).console.buzzer.beeping = true ∧
    (s.after ops').console.buzzer.beeping = false := by
  intro m s unseen ops ops'
  have hsilent : ops'.map Operation.silent = ops.map Operation.silent := rfl
  have hrefused : (s.after ops).perform (.interrupt unseen) =
    (.error (.device "gone"), ((s.after ops).perform (.interrupt unseen)).2) := rfl
  obtain ⟨hfailed, ⟨hmachine, hframes, -, -⟩, hseen⟩ := device_failures_leave_machine s ops
  exact ⟨(hfailed _ _ _ hrefused).1, hmachine, hframes, hsilent, hseen ops' hsilent,
    by decide +kernel, by decide +kernel⟩

end Station

end Chip8
