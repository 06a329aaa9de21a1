import Chip8.Proofs.Presses

set_option autoImplicit false

/-! # What a sound device has been told

A buzzer keeps a flag for what its device is doing, and the device may refuse any request. Whatever
is asked of a buzzer, the device ends up with a list of tones that it has *taken*, and the buzzer is
a function of that list (`Buzzer.after_eq_foldl_took`): it beeps if the last tone taken is the beep,
and it has counted the tones. A refused request is no tone taken, so it is as if it had not been
made.

If the buzzer only ever follows the sound timer, it asks for a tone just when the flag and the timer
disagree (`Buzzer.wanted_eq`). So the tones taken take turns, a request that is refused is
made again as long as it is needed, and with a device that never refuses there is one request for
each time that the timer starts or runs out. -/

namespace Chip8

/-- How many times a row of values changes, from a first value on. -/
def changes : Bool → List Bool → Nat
  | _, [] => 0
  | b, c :: rest => (if b = c then 0 else 1) + changes c rest

namespace Buzzer

/-- A request, with the sound device as it is by then. -/
structure Call where
  device : SoundDevice
  request : Request

/-- A buzzer that has not been asked for anything yet. -/
def silent : Buzzer := {}

/-- The tone that the device is asked for when a request is carried out. -/
def tone? (b : Buzzer) : Request → Option Tone
  | .follow timer => b.wanted timer
  | .play tone => some tone

/-- What comes of a call. -/
def call (b : Buzzer) (c : Call) : Answer := b.perform c.device c.request

/-- The buzzer after calls, first one first, whether or not the device refuses them. -/
def after (b : Buzzer) (calls : List Call) : Buzzer :=
  calls.foldl (fun b c => (b.call c).buzzer) b

/-- The tones that the device takes in the course of calls, first one first. -/
def taken (b : Buzzer) : List Call → List Tone
  | [] => []
  | c :: rest => (b.call c).sent.toList ++ (b.call c).buzzer.taken rest

/-- The buzzer after its device has taken a tone. -/
def took (b : Buzzer) (tone : Tone) : Buzzer := { beeping := tone == .beep, edges := b.edges + 1 }

variable {b : Buzzer} {device : SoundDevice} {timer : UInt8}

/-! ## Single requests -/

theorem perform_eq_ask? (b : Buzzer) (device : SoundDevice) (r : Request) :
    b.perform device r = b.ask? device (b.tone? r) := by
  cases r <;> rfl

/-- There are three things that can come of a request: nothing is asked for, the device refuses, or
    it takes the tone. -/
theorem ask?_cases (b : Buzzer) (device : SoundDevice) (want : Option Tone) :
    (want = none ∧ b.ask? device want = { buzzer := b }) ∨
    (∃ tone reason, want = some tone ∧ device tone = some reason ∧
      b.ask? device want = { buzzer := b, asked := some tone, refusal := some reason }) ∨
    ∃ tone, want = some tone ∧ device tone = none ∧
      b.ask? device want = { buzzer := b.took tone, asked := some tone } := by
  cases want with
  | none => exact .inl ⟨rfl, rfl⟩
  | some tone =>
    cases hdevice : device tone with
    | some reason => exact .inr (.inl ⟨tone, reason, rfl, hdevice, by simp [ask?, ask, hdevice]⟩)
    | none => exact .inr (.inr ⟨tone, rfl, hdevice, by simp [ask?, ask, hdevice, took]⟩)

@[simp] theorem asked_ask? (b : Buzzer) (device : SoundDevice) (want : Option Tone) :
    (b.ask? device want).asked = want := by
  obtain ⟨rfl, h⟩ | ⟨_, _, rfl, _, h⟩ | ⟨_, rfl, _, h⟩ := b.ask?_cases device want <;> rw [h]

@[simp] theorem refusal_ask? (b : Buzzer) (device : SoundDevice) (want : Option Tone) :
    (b.ask? device want).refusal = want.bind device := by
  obtain ⟨rfl, h⟩ | ⟨_, _, rfl, hdevice, h⟩ | ⟨_, rfl, hdevice, h⟩ := b.ask?_cases device want
  · rw [h]
    rfl
  · rw [h, Option.bind_some, hdevice]
  · rw [h, Option.bind_some, hdevice]

/-- The buzzer changes with the tones that its device takes, and with nothing else. -/
theorem buzzer_ask? (b : Buzzer) (device : SoundDevice) (want : Option Tone) :
    (b.ask? device want).buzzer = (b.ask? device want).sent.elim b b.took := by
  obtain ⟨_, h⟩ | ⟨_, _, _, _, h⟩ | ⟨_, _, _, h⟩ := b.ask?_cases device want <;> rw [h] <;> rfl

theorem buzzer_call (b : Buzzer) (c : Call) :
    (b.call c).buzzer = (b.call c).sent.elim b b.took := by
  rw [call, perform_eq_ask?, buzzer_ask?]

/-- A request that is refused sends nothing and changes nothing. -/
theorem call_of_refused {c : Call} (h : (b.call c).refusal.isSome) :
    (b.call c).sent = none ∧ (b.call c).buzzer = b := by
  have hsent : (b.call c).sent = none := if_pos h
  exact ⟨hsent, by rw [buzzer_call, hsent]; rfl⟩

/-! ## Following the timer -/

/-- A tone is asked for just when the flag and the timer disagree, and it is the one that the timer
    calls for. -/
theorem wanted_eq (b : Buzzer) (timer : UInt8) :
    b.wanted timer =
      if b.beeping = decide (0 < timer) then none
      else some (if 0 < timer then .beep else .silence) := by
  have hrunning : (timer != 0) = decide (0 < timer) := by
    rw [Bool.eq_iff_iff, bne_iff_ne, decide_eq_true_iff, UInt8.pos_iff_ne_zero]
  rw [wanted, hrunning]
  by_cases hpos : 0 < timer <;> cases b.beeping <;> simp [hpos]

/-- A look at the timer that is not refused leaves the flag as the timer has it. -/
theorem beeping_follow (h : (b.follow device timer).refusal = none) :
    (b.follow device timer).buzzer.beeping = decide (0 < timer) := by
  rw [follow, wanted_eq] at h ⊢
  split at h
  · next hsame => rwa [if_pos hsame]
  · next hdiffer =>
    rw [if_neg hdiffer]
    generalize htone : (if 0 < timer then Tone.beep else Tone.silence) = tone at h ⊢
    obtain ⟨hnone, _⟩ | ⟨_, _, _, _, hask⟩ | ⟨_, hsome, _, hask⟩ := b.ask?_cases device (some tone)
    · cases hnone
    · rw [hask] at h
      cases h
    · obtain rfl := Option.some.inj hsome
      rw [hask, ← htone]
      by_cases hpos : 0 < timer <;> simp [took, hpos]

/-- A tone that is taken when the timer is followed is the other one than the flag says. -/
theorem sent_follow {tone : Tone} (h : (b.follow device timer).sent = some tone) :
    tone = .beep ↔ b.beeping = false := by
  have hwant : b.wanted timer = some tone := by
    rw [follow] at h
    obtain ⟨_, hask⟩ | ⟨_, _, _, _, hask⟩ | ⟨_, hwant, _, hask⟩ :=
      b.ask?_cases device (b.wanted timer)
    · rw [hask] at h
      cases h
    · rw [hask] at h
      cases h
    · rw [hask] at h
      exact hwant.trans h
  rw [wanted_eq] at hwant
  split at hwant
  · cases hwant
  · next hdiffer =>
    obtain rfl := Option.some.inj hwant
    by_cases hpos : 0 < timer
    · simpa [hpos] using hdiffer
    · simpa [hpos] using hdiffer

/-- A device that never refuses takes a tone just when the flag and the timer disagree. -/
theorem buzzer_follow_willing (b : Buzzer) (timer : UInt8) :
    (b.follow .willing timer).buzzer =
      { beeping := decide (0 < timer),
        edges := (if b.beeping = decide (0 < timer) then 0 else 1) + b.edges } := by
  rw [follow, wanted_eq]
  split
  · next hsame => rw [← hsame, Nat.zero_add]; rfl
  · by_cases hpos : 0 < timer <;> simp [hpos, ask?, ask, SoundDevice.willing, Nat.add_comm]

/-! ## Calls one after the other -/

/-- Refused calls leave no trace: after any calls, a buzzer is what the tones taken make of it. -/
theorem after_eq_foldl_took (b : Buzzer) (calls : List Call) :
    b.after calls = (b.taken calls).foldl took b := by
  induction calls generalizing b with
  | nil => rfl
  | cons c rest ih =>
    show (b.call c).buzzer.after rest = _
    rw [ih, taken, List.foldl_append, buzzer_call]
    cases (b.call c).sent <;> rfl

/-- A flag that is down at first is up after calls if the last tone taken is the beep. -/
theorem beeping_after_iff (calls : List Call) (h : b.beeping = false) :
    (b.after calls).beeping = true ↔ (b.taken calls).getLast? = some .beep := by
  rw [after_eq_foldl_took]
  rcases List.eq_nil_or_concat (b.taken calls) with hnil | ⟨earlier, last, hlast⟩
  · simp [hnil, h]
  · rw [hlast, List.concat_eq_append, List.foldl_append, List.getLast?_append]
    simp [took]

/-- If a buzzer only follows the timer, every tone taken is the other one than that before. -/
theorem taken_take_turns (b : Buzzer) {calls : List Call}
    (h : ∀ c ∈ calls, ∃ timer, c.request = .follow timer) {k : Nat} {tone : Tone}
    (htone : (b.taken calls)[k]? = some tone) :
    tone = .beep ↔ (k % 2 = 0 ↔ b.beeping = false) := by
  induction calls generalizing b k with
  | nil => cases htone
  | cons c rest ih =>
    rw [List.forall_mem_cons] at h
    obtain ⟨⟨timer, hfollow⟩, hrest⟩ := h
    rw [taken, buzzer_call] at htone
    cases hsent : (b.call c).sent with
    | none =>
      rw [hsent] at htone
      exact ih b hrest htone
    | some first =>
      have hfirst : first = .beep ↔ b.beeping = false := by
        rw [call, hfollow] at hsent
        exact sent_follow hsent
      rw [hsent] at htone
      cases k with
      | zero =>
        obtain rfl : first = tone := Option.some.inj htone
        simp [hfirst]
      | succ k =>
        have hturn := ih (b.took first) hrest htone
        have hflag : (b.took first).beeping = false ↔ ¬ b.beeping = false := by
          rw [← hfirst]
          simp [took]
        have hparity : (k + 1) % 2 = 0 ↔ ¬ k % 2 = 0 := by omega
        rw [hturn, hflag, hparity]
        by_cases heven : k % 2 = 0 <;> simp [heven]

/-- If the device never refuses, there is one request for each time that the timer starts or runs
    out. -/
theorem edges_after_follow (b : Buzzer) (timers : List UInt8) :
    (b.after (timers.map fun timer => ⟨.willing, .follow timer⟩)).edges =
      changes b.beeping (timers.map fun timer => decide (0 < timer)) + b.edges := by
  induction timers generalizing b with
  | nil => exact (Nat.zero_add _).symm
  | cons timer rest ih =>
    show ((b.follow .willing timer).buzzer.after _).edges = _
    simp only [ih, buzzer_follow_willing, List.map_cons, changes]
    omega

/-! ## The end, and the console -/

/-- If the device takes the last request, or none has to be made, it is left silent. -/
theorem last_taken_of_close (calls : List Call) (h : device .silence = none) :
    ∀ tone ∈ (silent.taken calls ++ ((silent.after calls).close device).sent.toList).getLast?,
      tone = .silence := by
  have hflag : (silent.after calls).beeping = true ↔ _ := beeping_after_iff calls rfl
  intro tone htone
  rw [close] at htone
  cases hbeeping : (silent.after calls).beeping with
  | true =>
    have hsent : ((silent.after calls).ask? device (some .silence)).sent = some .silence := by
      simp [ask?, ask, h, Answer.sent]
    rw [hbeeping, if_pos rfl, hsent, Option.toList_some, List.getLast?_concat] at htone
    exact (Option.some.inj htone).symm
  | false =>
    have hnone : ((silent.after calls).ask? device none).sent = none := rfl
    rw [hbeeping, if_neg Bool.false_ne_true, hnone, Option.toList_none, List.append_nil] at htone
    rw [hbeeping, Option.mem_def.mp htone] at hflag
    cases tone with
    | silence => rfl
    | beep => simp at hflag

end Buzzer

namespace Station

/-- A frame that ends well has followed the sound timer after it has counted down. -/
theorem console_of_interrupt {s s' : Station} (h : s.interrupt = (.ok (), s')) :
    s'.console = (s.console.endFrame s.devices.sound).console := by
  have hdevices : (s.record (.draw s.clock s.console.machine.screen)).devices = s.devices := rfl
  cases hdisplay : s.devices.display with
  | some reason =>
    simp only [interrupt, hdevices, hdisplay] at h
    cases h
  | none =>
    simp only [interrupt, hdevices, hdisplay] at h
    rw [← (Prod.mk.inj h).2, console_note]
    split <;> rfl

/-- At the end of a frame, unless the sound device refuses a request, the flag is as the sound timer
    has it that has just counted down. -/
theorem beeping_of_interrupt {s s' : Station} (h : s.interrupt = (.ok (), s'))
    (hdevice : ∀ tone ∈ (s.console.endFrame s.devices.sound).asked, s.devices.sound tone = none) :
    s'.console.buzzer.beeping = decide (0 < s'.console.machine.registers.sound) := by
  rw [console_of_interrupt h]
  refine Buzzer.beeping_follow ?_
  rw [Buzzer.follow, Buzzer.refusal_ask?]
  have hasked : (s.console.endFrame s.devices.sound).asked =
      s.console.buzzer.wanted s.console.machine.tick.registers.sound := Buzzer.asked_ask? _ _ _
  rw [hasked] at hdevice
  exact Option.bind_eq_none_iff.mpr hdevice

end Station

namespace Buzzer

/-- **The buzzer is never left sounding.** Whatever a buzzer has been told to do, and whatever its
    device has refused of that: (1) the flag is up if and only if the last tone taken is the beep, a
    request that is refused sends nothing and leaves the flag as it was, and if the device takes the
    last request of all, the last tone taken, if there is any, is silence; (2) if the buzzer has
    only followed the timer, the tones taken take turns, the beep first; (3) a look at the timer
    that is not refused leaves the flag as the timer has it, and asks for a tone just when the flag
    and the timer disagree, so that a refused request is made again by every look that still needs
    it; (4) a buzzer that follows the timer on a device that never refuses has counted how often the
    timer has started or run out. (5) At a station, the flag is as the sound timer has it after
    every frame that ends well without a refusal. -/
theorem never_left_sounding (calls : List Call) (timers : List UInt8) (s s' : Station) :
    let b := silent.after calls
    let taken := silent.taken calls
    ((b.beeping = true ↔ taken.getLast? = some .beep) ∧
      (∀ c, (b.call c).refusal.isSome →
        (b.call c).sent = none ∧ (b.call c).buzzer.beeping = b.beeping) ∧
      ∀ device, device .silence = none →
        ∀ tone ∈ (taken ++ (b.close device).sent.toList).getLast?, tone = .silence) ∧
    ((∀ c ∈ calls, ∃ timer, c.request = .follow timer) →
      ∀ k tone, taken[k]? = some tone → (tone = .beep ↔ k % 2 = 0)) ∧
    (∀ device timer,
      ((b.follow device timer).refusal = none →
        ((b.follow device timer).buzzer.beeping = true ↔ 0 < timer)) ∧
      (b.follow device timer).asked =
        if b.beeping = decide (0 < timer) then none
        else some (if 0 < timer then .beep else .silence)) ∧
    (silent.after (timers.map fun timer => ⟨.willing, .follow timer⟩)).edges =
      changes false (timers.map fun timer => decide (0 < timer)) ∧
    (s.interrupt = (.ok (), s') →
      (∀ tone ∈ (s.console.endFrame s.devices.sound).asked, s.devices.sound tone = none) →
      (s'.console.buzzer.beeping = true ↔ 0 < s'.console.machine.registers.sound)) := by
  intro b taken
  refine ⟨⟨beeping_after_iff calls rfl, fun c hrefused => ?_, fun device hdevice => ?_⟩,
    fun hfollow k tone htone => ?_, fun device timer => ⟨fun hnone => ?_, ?_⟩,
    edges_after_follow silent timers, fun hinterrupt hdevice => ?_⟩
  · obtain ⟨hsent, hbuzzer⟩ := call_of_refused hrefused
    exact ⟨hsent, by rw [hbuzzer]⟩
  · exact last_taken_of_close calls hdevice
  · simpa [silent] using taken_take_turns silent hfollow htone
  · rw [beeping_follow hnone, decide_eq_true_iff]
  · rw [follow, asked_ask?, wanted_eq]
  · rw [Station.beeping_of_interrupt hinterrupt hdevice, decide_eq_true_iff]

/-- A device that is busy now and then: the beep is heard one look late, and the silence as well, as
    it is asked for again. After the second beep the silence is refused, and if nobody looks any
    more, the last request sends it. At a station whose sound timer stands at two, the next frame
    ends with the beep. -/
theorem busyDevice_falls_silent :
    let busy : SoundDevice := fun _ => some "busy"
    let calls : List Call :=
      [⟨busy, .follow 3⟩, ⟨.willing, .follow 2⟩, ⟨busy, .follow 0⟩, ⟨.willing, .follow 0⟩,
        ⟨.willing, .follow 1⟩]
    let b := silent.after calls
    let registers := { Registers.reset with sound := 2 }
    let s : Station := { console := { machine := { Machine.fresh {} 0 with registers } } }
    (∀ c ∈ calls, ∃ timer, c.request = .follow timer) ∧
    silent.taken calls = [.beep, .silence, .beep] ∧ ¬ (silent.taken calls)[1]? = some .beep ∧
    b.beeping = true ∧ (b.call ⟨busy, .follow 0⟩).refusal.isSome ∧
    (b.call ⟨busy, .follow 0⟩).buzzer.beeping = true ∧ (b.follow .willing 0).refusal = none ∧
    (b.follow .willing 0).asked = some .silence ∧
    ¬ (b.follow .willing 0).buzzer.beeping = true ∧
    (∀ tone ∈ (silent.taken calls ++ (b.close .willing).sent.toList).getLast?, tone = .silence) ∧
    s.interrupt.2.console.buzzer.beeping = true := by
  intro busy calls b registers s
  obtain ⟨⟨hflag, hrefused, hclose⟩, hturns, hlook, -, hframe⟩ :=
    never_left_sounding calls [] s s.interrupt.2
  have hfollow : ∀ c ∈ calls, ∃ timer, c.request = .follow timer := by simp [calls]
  have htaken : silent.taken calls = [.beep, .silence, .beep] := rfl
  have hbeeping : b.beeping = true := hflag.mpr (by rw [htaken]; rfl)
  have hbusy : (b.call ⟨busy, .follow 0⟩).refusal.isSome := rfl
  have hwilling : (b.follow .willing 0).refusal = none := rfl
  have hinterrupt : s.interrupt = (.ok (), s.interrupt.2) := rfl
  refine ⟨hfollow, htaken, fun hbeep => ?_, hbeeping, hbusy, (hrefused _ hbusy).2.trans hbeeping,
    hwilling, (hlook .willing 0).2, fun hup => ?_, hclose .willing rfl, ?_⟩
  · exact absurd ((hturns hfollow 1 .beep hbeep).mp rfl) (by decide)
  · exact absurd (((hlook .willing 0).1 hwilling).mp hup) (by decide)
  · exact (hframe hinterrupt fun tone _ => by cases tone <;> rfl).mpr (by decide)

end Buzzer

end Chip8
