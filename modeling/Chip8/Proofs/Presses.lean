import Chip8.Console.Station

set_option autoImplicit false

/-! # Key presses between polls and cycles

Polls, cycles and interrupts come in any order, and the pending press is all that they share. Of
what happens to a station, only two kinds of events matter to it: polls that succeed and cycles that
succeed. So the past of a station is a list of such events, newest first, and the keypad is a
function of it (`Keypad.Recalls`): the keys held are those of the last poll, and the press that is
pending is the first one found by the last poll since the last cycle that found any.

So a press is never made up and never delivered twice (`press_delivered_at_most_once`). It is not
always delivered, though: if another key goes down before the next cycle, that press takes the place
of the one that is pending (`later_press_supersedes`), and only if none does is the first one kept
(`press_kept_unless_superseded`). -/

namespace Chip8

/-! ## The past of a keypad -/

/-- Something that the keypad takes notice of. -/
inductive KeypadEvent where
  /-- A poll that succeeded, and found these keys. -/
  | polled (keys : List UInt8)
  /-- A cycle that succeeded. -/
  | cycled

/-- The keys that the last poll found, if the events are listed with the newest one first. -/
def lastKeys : List KeypadEvent → List UInt8
  | [] => []
  | .polled keys :: _ => keys
  | .cycled :: past => lastKeys past

/-- A poll that finds `keys` finds the key `k` newly down: the poll before it did not find it. -/
def WentDown (past : List KeypadEvent) (keys : List UInt8) (k : UInt8) : Prop :=
  k ∈ keys ∧ k < 16 ∧ k ∉ lastKeys past

/-- The first key, as they are listed, that a poll that finds `keys` finds newly down. -/
def firstDown (past : List KeypadEvent) (keys : List UInt8) : Option UInt8 :=
  keys.find? fun k => k < 16 ∧ k ∉ lastKeys past

/-- A poll since the last cycle found the key `k` newly down. -/
def PressedSinceCycle (past : List KeypadEvent) (k : UInt8) : Prop :=
  ∃ since keys before, past = since ++ .polled keys :: before ∧ .cycled ∉ since ∧
    WentDown before keys k

/-- The press that no cycle has used up yet: that of the last poll that found one. -/
def pendingPress : List KeypadEvent → Option UInt8
  | [] => none
  | .polled keys :: past => (firstDown past keys).or (pendingPress past)
  | .cycled :: _ => none

section

variable {past : List KeypadEvent} {keys : List UInt8} {k : UInt8}

theorem wentDown_of_firstDown (h : firstDown past keys = some k) : WentDown past keys k :=
  ⟨List.mem_of_find?_eq_some h, by simpa using List.find?_some h⟩

theorem PressedSinceCycle.lt (h : PressedSinceCycle past k) : k < 16 := by
  obtain ⟨_, _, _, _, _, hdown⟩ := h
  exact hdown.2.1

theorem exists_firstDown (h : WentDown past keys k) : ∃ k', firstDown past keys = some k' := by
  refine Option.isSome_iff_exists.mp (List.find?_isSome.mpr ⟨k, h.1, ?_⟩)
  simpa using h.2

theorem not_pressedSinceCycle_nil : ¬ PressedSinceCycle [] k := by
  rintro ⟨since, keys, before, hpast, -⟩
  simp at hpast

theorem not_pressedSinceCycle_cycled : ¬ PressedSinceCycle (.cycled :: past) k := by
  rintro ⟨since, keys, before, hpast, hcycled, -⟩
  cases since with
  | nil => cases hpast
  | cons e since =>
    cases (List.cons.inj hpast).1
    exact hcycled List.mem_cons_self

theorem pressedSinceCycle_polled :
    PressedSinceCycle (.polled keys :: past) k ↔
      WentDown past keys k ∨ PressedSinceCycle past k := by
  constructor
  · rintro ⟨since, keys', before, hpast, hcycled, hdown⟩
    cases since with
    | nil =>
      cases hpast
      exact .inl hdown
    | cons e since =>
      obtain ⟨-, hpast⟩ := List.cons.inj hpast
      exact .inr ⟨since, keys', before, hpast, fun h => hcycled (List.mem_cons_of_mem e h), hdown⟩
  · rintro (hdown | ⟨since, keys', before, rfl, hcycled, hdown⟩)
    · exact ⟨[], keys, past, rfl, List.not_mem_nil, hdown⟩
    · exact ⟨.polled keys :: since, keys', before, rfl, by simpa using hcycled, hdown⟩

theorem pressed_of_pendingPress (h : pendingPress past = some k) : PressedSinceCycle past k := by
  induction past with
  | nil => cases h
  | cons e past ih =>
    cases e with
    | cycled => cases h
    | polled keys =>
      rw [pressedSinceCycle_polled]
      rcases Option.or_eq_some_iff.mp h with hdown | ⟨-, hbefore⟩
      · exact .inl (wentDown_of_firstDown hdown)
      · exact .inr (ih hbefore)

theorem exists_pendingPress (h : PressedSinceCycle past k) : ∃ k', pendingPress past = some k' := by
  induction past with
  | nil => exact absurd h not_pressedSinceCycle_nil
  | cons e past ih =>
    cases e with
    | cycled => exact absurd h not_pressedSinceCycle_cycled
    | polled keys =>
      rcases pressedSinceCycle_polled.mp h with hdown | hbefore
      · obtain ⟨k', hk'⟩ := exists_firstDown hdown
        exact ⟨k', Option.or_eq_some_iff.mpr (.inl hk')⟩
      · obtain ⟨k', hk'⟩ := ih hbefore
        cases hdown : firstDown past keys with
        | some k => exact ⟨k, Option.or_eq_some_iff.mpr (.inl hdown)⟩
        | none => exact ⟨k', Option.or_eq_some_iff.mpr (.inr ⟨hdown, hk'⟩)⟩

end

/-! ## What a keypad recalls -/

/-- The keypad is as the past has it. -/
structure Keypad.Recalls (k : Keypad) (past : List KeypadEvent) : Prop where
  held_iff : ∀ key, key < 16 → (k.isPressed key ↔ key ∈ lastKeys past)
  pending_eq : k.newlyPressed = pendingPress past

namespace Keypad.Recalls

variable {k : Keypad} {past : List KeypadEvent}

theorem idle : Keypad.idle.Recalls [] where
  held_iff key _ := by simp [Keypad.isPressed, Keypad.idle, lastKeys]
  pending_eq := rfl

/-- What is news to a keypad is a key that the last poll did not find. -/
theorem find_isNews (h : k.Recalls past) (keys : List UInt8) :
    keys.find? k.isNews = firstDown past keys := by
  unfold firstDown
  congr 1
  funext key
  by_cases hkey : key < 16
  · have hheld := h.held_iff key hkey
    cases hpressed : k.isPressed key <;> simp_all [Keypad.isNews]
  · simp [Keypad.isNews, hkey]

theorem polled {c : Console} (h : c.keypad.Recalls past) (keys : List UInt8) :
    (c.poll keys).keypad.Recalls (.polled keys :: past) where
  held_iff key hkey := by
    show (Keypad.ofKeys keys c.keypad).isPressed key = true ↔ key ∈ keys
    exact Keypad.isPressed_iff_mem hkey
  pending_eq := by
    rw [pendingPress, ← h.find_isNews, ← h.pending_eq]
    exact Option.orElse_eq_or

theorem cycled (h : k.Recalls past) :
    ({ k with newlyPressed := none } : Keypad).Recalls (.cycled :: past) where
  held_iff := h.held_iff
  pending_eq := rfl

end Keypad.Recalls

/-! ## Operations -/

/-- Something that is done with a station. -/
inductive Operation where
  | poll (p : Poll)
  | cycle
  /-- The end of a frame, with the devices as they are by then. -/
  | interrupt (devices : Devices)

namespace Station

/-- What comes of an operation. -/
def perform (s : Station) : Operation → Except RunError Unit × Station
  | .poll p => s.poll p
  | .cycle => s.cycle
  | .interrupt devices => { s with devices }.interrupt

/-- What the keypad takes notice of when an operation is performed. -/
def noticed (s : Station) : Operation → Option KeypadEvent
  | .poll p => if (s.poll p).1.isOk then some (.polled p.keys) else none
  | .cycle => if s.cycle.1.isOk then some .cycled else none
  | .interrupt _ => none

@[simp] theorem isOk_poll (s : Station) (p : Poll) : (s.poll p).1.isOk = p.failure.isNone := by
  cases hfailure : p.failure <;> simp [poll, hfailure, Except.isOk, Except.toBool]

@[simp] theorem console_poll (s : Station) (p : Poll) :
    (s.poll p).2.console = if p.failure.isNone then s.console.poll p.keys else s.console := by
  cases hfailure : p.failure <;> simp [poll, hfailure, record]

@[simp] theorem console_note (s : Station) (records : List Record) :
    (s.note records).console = s.console := by
  unfold note
  split <;> rfl

@[simp] theorem console_cycle (s : Station) : s.cycle.2.console = s.console.cycle.console := by
  simp only [cycle]
  split <;> exact console_note _ _

@[simp] theorem isOk_cycle (s : Station) : s.cycle.1.isOk = s.console.cycle.fault.isNone := by
  have hconsole : (s.record (.cycle s.clock)).console = s.console := rfl
  cases hfault : s.console.cycle.fault <;>
    simp [cycle, hconsole, hfault, Except.isOk, Except.toBool]

/-- What an operation does to the keypad. -/
theorem keypad_perform (s : Station) (op : Operation) :
    (s.perform op).2.console.keypad =
      match s.noticed op with
      | some (.polled keys) => (s.console.poll keys).keypad
      | some .cycled => { s.console.keypad with newlyPressed := none }
      | none => s.console.keypad := by
  cases op with
  | poll p => cases hfailure : p.failure <;> simp [noticed, perform, hfailure]
  | cycle =>
    cases hfault : (s.console.machine.step s.console.keypad).fault <;>
      simp [noticed, perform, Console.cycle, hfault]
  | interrupt devices =>
    simp only [noticed, perform, interrupt]
    split
    · rfl
    · split <;> simp [record, Console.endFrame]

/-- The next cycle finishes a wait for a key to be put into the register `x`. -/
def FinishesWait (s : Station) (x : Fin 16) : Prop :=
  s.console.machine.activity = .awaitingKey x ∧ s.cycle.2.console.machine.activity = .running

variable {s : Station} {x : Fin 16}

/-- The cycle of a machine that waits for a key succeeds, and puts the press that is pending into
    the register. -/
theorem cycle_of_waiting (hwait : s.console.machine.activity = .awaitingKey x) :
    s.cycle.1.isOk ∧ s.cycle.2.console.machine =
      match s.console.keypad.newlyPressed with
      | some key =>
        { s.console.machine with
          registers := s.console.machine.registers.setV x key, activity := .running }
      | none => s.console.machine := by
  rw [isOk_cycle, console_cycle, Console.cycle, Machine.step, hwait]
  cases s.console.keypad.newlyPressed <;> exact ⟨rfl, rfl⟩

theorem finishesWait_of_pending {key : UInt8} (hwait : s.console.machine.activity = .awaitingKey x)
    (hkey : s.console.keypad.newlyPressed = some key) :
    s.FinishesWait x ∧ s.cycle.2.console.machine.v x = key := by
  have hmachine := (cycle_of_waiting hwait).2
  rw [hkey] at hmachine
  refine ⟨⟨hwait, by rw [hmachine]⟩, ?_⟩
  rw [hmachine, Machine.v, Registers.v_setV, if_pos rfl]

theorem pending_of_finishesWait (h : s.FinishesWait x) :
    ∃ key, s.console.keypad.newlyPressed = some key := by
  have hmachine := (cycle_of_waiting h.1).2
  cases hkey : s.console.keypad.newlyPressed with
  | some key => exact ⟨key, rfl⟩
  | none =>
    rw [hkey] at hmachine
    have hrun := h.2
    rw [hmachine, h.1] at hrun
    cases hrun

end Station

/-! ## A station under watch -/

/-- A station, and what its keypad has taken notice of so far, newest event first. -/
structure Watch where
  station : Station
  past : List KeypadEvent := []

namespace Watch

def perform (w : Watch) (op : Operation) : Watch where
  station := (w.station.perform op).2
  past := (w.station.noticed op).toList ++ w.past

/-- The station and its past after operations, first one first. -/
def after (w : Watch) (ops : List Operation) : Watch := ops.foldl perform w

@[simp] theorem after_nil (w : Watch) : w.after [] = w := rfl

@[simp] theorem after_cons (w : Watch) (op : Operation) (ops : List Operation) :
    w.after (op :: ops) = (w.perform op).after ops := rfl

/-- The keypad that the next cycle sees. -/
def keypad (w : Watch) : Keypad := w.station.console.keypad

/-- The station recalls its past. -/
def Recalls (w : Watch) : Prop := w.keypad.Recalls w.past

theorem Recalls.perform {w : Watch} (h : w.Recalls) (op : Operation) : (w.perform op).Recalls := by
  unfold Recalls keypad Watch.perform
  rw [Station.keypad_perform]
  cases w.station.noticed op with
  | none => exact h
  | some e =>
    cases e with
    | polled keys => exact Keypad.Recalls.polled h keys
    | cycled => exact Keypad.Recalls.cycled h

theorem Recalls.after {w : Watch} (h : w.Recalls) (ops : List Operation) :
    (w.after ops).Recalls := by
  induction ops generalizing w with
  | nil => exact h
  | cons op rest ih => exact ih (h.perform op)

/-- A station whose console is new, around the machine `m`. -/
def ofMachine (s : Station) (m : Machine) : Watch where
  station := { s with console := { machine := m, buzzer := s.console.buzzer } }

theorem recalls_ofMachine (s : Station) (m : Machine) : (ofMachine s m).Recalls :=
  Keypad.Recalls.idle

theorem after_append (w : Watch) (ops more : List Operation) :
    w.after (ops ++ more) = (w.after ops).after more :=
  List.foldl_append

/-- A press can only come from a poll that found it. -/
theorem pressed_perform {w : Watch} {op : Operation} {k : UInt8}
    (h : PressedSinceCycle (w.perform op).past k) :
    PressedSinceCycle w.past k ∨
      ∃ p, op = .poll p ∧ p.failure = none ∧ WentDown w.past p.keys k := by
  rw [Watch.perform] at h
  cases op with
  | poll p =>
    cases hfailure : p.failure with
    | some reason =>
      rw [Station.noticed, Station.isOk_poll, hfailure] at h
      exact .inl h
    | none =>
      rw [Station.noticed, Station.isOk_poll, hfailure] at h
      rcases pressedSinceCycle_polled.mp h with hdown | hbefore
      · exact .inr ⟨p, rfl, hfailure, hdown⟩
      · exact .inl hbefore
  | cycle =>
    rw [Station.noticed] at h
    split at h
    · exact absurd h not_pressedSinceCycle_cycled
    · exact .inl h
  | interrupt devices => exact .inl h

theorem pressed_after {w : Watch} {ops : List Operation} {k : UInt8}
    (h : PressedSinceCycle (w.after ops).past k) :
    PressedSinceCycle w.past k ∨
      ∃ before p later, ops = before ++ .poll p :: later ∧ p.failure = none ∧
        WentDown (w.after before).past p.keys k := by
  induction ops generalizing w with
  | nil => exact .inl h
  | cons op rest ih =>
    rcases ih h with hop | ⟨before, p, later, rfl, hfailure, hdown⟩
    · rcases pressed_perform hop with hbefore | ⟨p, rfl, hfailure, hdown⟩
      · exact .inl hbefore
      · exact .inr ⟨[], p, rest, rfl, hfailure, hdown⟩
    · exact .inr ⟨op :: before, p, later, rfl, hfailure, hdown⟩

/-- **A press is delivered at most once and never forged.** Whatever polls, cycles and interrupts
    there have been at a station with a new console, a press is pending iff a poll since the last
    successful cycle found a key newly down, and it is then such a key. So a wait for a key is only
    finished with a key below sixteen that went down since the last successful cycle, and between
    two waits that are finished there is a poll that found a key newly down. -/
theorem press_delivered_at_most_once (s : Station) (m : Machine) (ops : List Operation) :
    let w := (ofMachine s m).after ops
    (w.keypad.newlyPressed.isSome ↔ ∃ k, PressedSinceCycle w.past k) ∧
    (∀ k, w.keypad.newlyPressed = some k → k < 16 ∧ PressedSinceCycle w.past k) ∧
    (∀ x, w.station.FinishesWait x → ∃ k, k < 16 ∧ PressedSinceCycle w.past k ∧
      w.station.cycle.2.console.machine.v x = k) ∧
    (∀ before between x y, ops = before ++ .cycle :: between →
      ((ofMachine s m).after before).station.FinishesWait x → w.station.FinishesWait y →
      ∃ earlier p later k, between = earlier ++ .poll p :: later ∧ p.failure = none ∧
        WentDown ((ofMachine s m).after (before ++ .cycle :: earlier)).past p.keys k) := by
  intro w
  have hrecalls : w.Recalls := (recalls_ofMachine s m).after ops
  have hpressed : ∀ k, w.keypad.newlyPressed = some k → PressedSinceCycle w.past k :=
    fun k hk => pressed_of_pendingPress (hrecalls.pending_eq ▸ hk)
  have hdelivered : ∀ x, w.station.FinishesWait x → ∃ k, PressedSinceCycle w.past k ∧
      w.station.cycle.2.console.machine.v x = k := by
    intro x hx
    obtain ⟨k, hk⟩ := Station.pending_of_finishesWait hx
    exact ⟨k, hpressed k hk, (Station.finishesWait_of_pending hx.1 hk).2⟩
  refine ⟨⟨fun h => ?_, fun ⟨k, hk⟩ => ?_⟩, fun k hk => ⟨(hpressed k hk).lt, hpressed k hk⟩,
    fun x hx => ?_, fun before between x y hops hx hy => ?_⟩
  · obtain ⟨k, hk⟩ := Option.isSome_iff_exists.mp h
    exact ⟨k, hpressed k hk⟩
  · rw [hrecalls.pending_eq]
    exact Option.isSome_iff_exists.mpr (exists_pendingPress hk)
  · obtain ⟨k, hk, hv⟩ := hdelivered x hx
    exact ⟨k, hk.lt, hk, hv⟩
  · obtain ⟨k, hk, -⟩ := hdelivered y hy
    have hw : w = (((ofMachine s m).after before).perform .cycle).after between := by
      show (ofMachine s m).after ops = _
      rw [hops, after_append, after_cons]
    rw [hw] at hk
    rcases pressed_after hk with hbefore | ⟨earlier, p, later, hbetween, hfailure, hdown⟩
    · -- the cycle that finished the first wait has used up whatever was pressed before it
      rw [Watch.perform, Station.noticed, if_pos (Station.cycle_of_waiting hx.1).1] at hbefore
      exact absurd hbefore not_pressedSinceCycle_cycled
    · refine ⟨earlier, p, later, k, hbetween, hfailure, ?_⟩
      rwa [after_append, after_cons]

/-- A machine that waits for a key to be put into V2, and then for one to be put into V3. -/
def twoWaits : Machine :=
  { Machine.fresh {} 0 with
    memory := { bytes := (Vector.replicate 4096 0x0a).set 0x200 0xf3 }, activity := .awaitingKey 2 }

/-- The key 9, pressed once, finishes the first wait only: the second one is not finished while 9 is
    held, but when it is pressed again. -/
theorem twoWaits_take_two_presses :
    let start := ofMachine { console := { machine := twoWaits } } twoWaits
    let held : List Operation := [.cycle, .poll { keys := [9] }]
    let again : List Operation := [.poll {}, .poll { keys := [9] }]
    (start.after [.poll { keys := [9] }]).station.FinishesWait 2 ∧
    ¬ (start.after ([.poll { keys := [9] }] ++ .cycle :: held)).station.FinishesWait 3 ∧
    (start.after ([.poll { keys := [9] }] ++ .cycle :: (held ++ again))).station.FinishesWait 3 ∧
    ∃ earlier p later k, held ++ again = earlier ++ .poll p :: later ∧ p.failure = none ∧
      WentDown (start.after ([.poll { keys := [9] }] ++ .cycle :: earlier)).past p.keys k := by
  intro start held again
  have hbetween := (press_delivered_at_most_once { console := { machine := twoWaits } } twoWaits
    ([.poll { keys := [9] }] ++ .cycle :: (held ++ again))).2.2.2 [.poll { keys := [9] }]
    (held ++ again) 2 3 rfl
  have hfirst : (start.after [.poll { keys := [9] }]).station.FinishesWait 2 :=
    ⟨by decide +kernel, by decide +kernel⟩
  have hheld : ¬ (start.after
      ([.poll { keys := [9] }] ++ .cycle :: held)).station.FinishesWait 3 := by
    rintro ⟨-, hrun⟩
    revert hrun
    decide +kernel
  have hsecond : (start.after
      ([.poll { keys := [9] }] ++ .cycle :: (held ++ again))).station.FinishesWait 3 :=
    ⟨by decide +kernel, by decide +kernel⟩
  exact ⟨hfirst, hheld, hsecond, hbetween hfirst hsecond⟩

/-! ## Presses that follow one another -/

/-- No cycle among the operations succeeds. -/
def Unused (w : Watch) (ops : List Operation) : Prop :=
  ∀ before later, ops = before ++ .cycle :: later → (w.after before).station.cycle.1.isOk = false

/-- No poll among the operations finds a key other than `k` newly down, as the first such key. -/
def Unrivalled (w : Watch) (k : UInt8) (ops : List Operation) : Prop :=
  ∀ before p later, ops = before ++ .poll p :: later → p.failure = none →
    ∀ k', firstDown (w.after before).past p.keys = some k' → k' = k

theorem unused_nil (w : Watch) : w.Unused [] := by
  intro before later hops
  simp at hops

theorem unused_cons {w : Watch} {op : Operation} {rest : List Operation} :
    w.Unused (op :: rest) ↔
      (op = .cycle → w.station.cycle.1.isOk = false) ∧ (w.perform op).Unused rest := by
  constructor
  · intro h
    exact ⟨fun hop => h [] rest (by rw [hop]; rfl),
      fun before later hrest => h (op :: before) later (congrArg (op :: ·) hrest)⟩
  · rintro ⟨hop, hrest⟩ (_ | ⟨e, before⟩) later hops
    · exact hop (List.cons.inj hops).1
    · obtain ⟨rfl, htail⟩ := List.cons.inj hops
      exact hrest before later htail

theorem unrivalled_nil (w : Watch) (k : UInt8) : w.Unrivalled k [] := by
  intro before p later hops
  simp at hops

theorem unrivalled_cons {w : Watch} {k : UInt8} {op : Operation} {rest : List Operation} :
    w.Unrivalled k (op :: rest) ↔
      (∀ p, op = .poll p → p.failure = none → ∀ k', firstDown w.past p.keys = some k' → k' = k) ∧
        (w.perform op).Unrivalled k rest := by
  constructor
  · intro h
    exact ⟨fun p hop => h [] p rest (by rw [hop]; rfl),
      fun before p later hrest => h (op :: before) p later (congrArg (op :: ·) hrest)⟩
  · rintro ⟨hop, hrest⟩ (_ | ⟨e, before⟩) p later hops
    · exact hop p (List.cons.inj hops).1
    · obtain ⟨rfl, htail⟩ := List.cons.inj hops
      exact hrest before p later htail

/-- A pending press outlasts a cycle that fails and a poll that finds no other key newly down. -/
theorem pendingPress_perform {w : Watch} {op : Operation} {k : UInt8}
    (hpending : pendingPress w.past = some k)
    (hcycle : op = .cycle → w.station.cycle.1.isOk = false)
    (hpoll : ∀ p, op = .poll p → p.failure = none →
      ∀ k', firstDown w.past p.keys = some k' → k' = k) :
    pendingPress (w.perform op).past = some k := by
  rw [Watch.perform]
  cases op with
  | poll p =>
    cases hfailure : p.failure with
    | some reason =>
      rw [Station.noticed, Station.isOk_poll, hfailure]
      exact hpending
    | none =>
      rw [Station.noticed, Station.isOk_poll, hfailure]
      show (firstDown w.past p.keys).or (pendingPress w.past) = some k
      cases hdown : firstDown w.past p.keys with
      | none => rw [Option.none_or, hpending]
      | some k' => rw [Option.some_or, hpoll p rfl hfailure k' hdown]
  | cycle =>
    rw [Station.noticed, hcycle rfl]
    exact hpending
  | interrupt devices => exact hpending

theorem pendingPress_after {w : Watch} {ops : List Operation} {k : UInt8}
    (hpending : pendingPress w.past = some k) (hunused : w.Unused ops)
    (hunrivalled : w.Unrivalled k ops) : pendingPress (w.after ops).past = some k := by
  induction ops generalizing w with
  | nil => exact hpending
  | cons op rest ih =>
    obtain ⟨hcycle, hunused⟩ := unused_cons.mp hunused
    obtain ⟨hpoll, hunrivalled⟩ := unrivalled_cons.mp hunrivalled
    exact ih (pendingPress_perform hpending hcycle hpoll) hunused hunrivalled

/-- **A press is kept unless a later one takes its place.** Let a poll find the key `k` newly down,
    the first such key as they are listed, and let no other key go down in that way before the next
    successful cycle. Then that cycle sees `k`, even if it has been released since, and a machine
    that waits for a key is given it. -/
theorem press_kept_unless_superseded (s : Station) (m : Machine) (before : List Operation)
    (p : Poll) (k : UInt8) (later : List Operation) (hfailure : p.failure = none)
    (hdown : firstDown ((ofMachine s m).after before).past p.keys = some k)
    (hunused : ((ofMachine s m).after (before ++ [.poll p])).Unused later)
    (hunrivalled : ((ofMachine s m).after (before ++ [.poll p])).Unrivalled k later) :
    let w := (ofMachine s m).after (before ++ .poll p :: later)
    w.keypad.newlyPressed = some k ∧
    ∀ x, w.station.console.machine.activity = .awaitingKey x →
      w.station.FinishesWait x ∧ w.station.cycle.2.console.machine.v x = k := by
  intro w
  have hfound : pendingPress ((ofMachine s m).after (before ++ [.poll p])).past = some k := by
    rw [after_append, after_cons, after_nil, Watch.perform, Station.noticed, Station.isOk_poll,
      hfailure]
    exact Option.or_eq_some_iff.mpr (.inl hdown)
  have hw : w = ((ofMachine s m).after (before ++ [.poll p])).after later := by
    rw [← after_append, List.append_assoc]
    rfl
  have hpending : w.keypad.newlyPressed = some k := by
    have hrecalls : w.Recalls := (recalls_ofMachine s m).after _
    rw [hrecalls.pending_eq, hw]
    exact pendingPress_after hfound hunused hunrivalled
  exact ⟨hpending, fun x hwait => Station.finishesWait_of_pending hwait hpending⟩

/-- A press of the key 9 is given to a machine that waits for a key, although a frame ends and the
    key is released and pressed again before the machine's next cycle. -/
theorem released_press_reaches_cycle :
    let m : Machine := { Machine.fresh {} 0 with activity := .awaitingKey 2 }
    let later : List Operation := [.interrupt {}, .poll {}, .poll { keys := [9] }]
    let start := ofMachine { console := { machine := m } } m
    let w := start.after ([.poll {}] ++ .poll { keys := [9] } :: later)
    firstDown (start.after [.poll {}]).past [9] = some 9 ∧
    (start.after ([.poll {}] ++ [.poll { keys := [9] }])).Unused later ∧
    (start.after ([.poll {}] ++ [.poll { keys := [9] }])).Unrivalled 9 later ∧
    w.keypad.newlyPressed = some 9 ∧ w.station.FinishesWait 2 ∧
    w.station.cycle.2.console.machine.v 2 = 9 := by
  intro m later start w
  have hdown : firstDown (start.after [.poll {}]).past [9] = some 9 := rfl
  have hunused : (start.after ([.poll {}] ++ [.poll { keys := [9] }])).Unused later := by
    simp only [later, unused_cons, reduceCtorEq, false_implies, true_and]
    exact unused_nil _
  have hunrivalled : (start.after ([.poll {}] ++ [.poll { keys := [9] }])).Unrivalled 9 later := by
    simp only [later, unrivalled_cons, reduceCtorEq, false_implies, true_and, implies_true]
    refine ⟨fun p hp _ k' hk' => ?_, fun p hp _ k' hk' => ?_, unrivalled_nil _ _⟩
    · cases hp
      cases hk'
    · cases hp
      exact (Option.some.inj hk').symm
  obtain ⟨hpending, hgiven⟩ := press_kept_unless_superseded { console := { machine := m } } m
    [.poll {}] { keys := [9] } 9 later rfl hdown hunused hunrivalled
  exact ⟨hdown, hunused, hunrivalled, hpending, hgiven 2 rfl⟩

/-- A later press takes the place of one that is still pending. So it is not true that the cycle
    after a press sees that press whatever else the polls in between may find: of the keys 9 and 3,
    pressed one after the other, it sees 3. -/
theorem later_press_supersedes :
    ¬ ∀ (s : Station) (m : Machine) (before : List Operation) (p : Poll) (k : UInt8)
      (later : List Operation),
      ((ofMachine s m).after before).keypad.newlyPressed = none → p.failure = none →
      firstDown ((ofMachine s m).after before).past p.keys = some k →
      ((ofMachine s m).after (before ++ [.poll p])).Unused later →
      ((ofMachine s m).after (before ++ .poll p :: later)).keypad.newlyPressed = some k := by
  intro h
  have hunused : ((ofMachine { console := { machine := default } } default).after
      [.poll { keys := [9] }]).Unused [.poll { keys := [9, 3] }] := by
    simp only [unused_cons, reduceCtorEq, false_implies, true_and]
    exact unused_nil _
  have hnine := h { console := { machine := default } } default [] { keys := [9] } 9
    [.poll { keys := [9, 3] }] rfl rfl rfl hunused
  have hthree : ((ofMachine { console := { machine := default } } default).after
      [.poll { keys := [9] }, .poll { keys := [9, 3] }]).keypad.newlyPressed = some 3 := rfl
  cases hthree.symm.trans hnine

end Watch

end Chip8
