import Chip8.Keyboard.Basic
import Chip8.Keypad
import Mathlib.Data.List.Chain

set_option autoImplicit false

/-! # Keys that repeat

A terminal reports a key again and again while it is down, and says nothing when it comes up. The
keyboard remembers the last report of each key and forgets it when a look finds it too old; a look
takes a snapshot, which names a key as newly pressed if the snapshot before did not hold it. Reports
and looks come at times of their own.

What the two layers remember is a function of the past (`Lookout.Recalls`): for every moment from
now on, a key is held iff some report of it is recent enough, no matter what the looks in between
have forgotten, since what is too old now will be too old later; and the snapshot is what the last
look found. So a look names a key just when it finds it held and the look before did not, and a row
of reports with no gap as long as the hold time is named once. -/

namespace Chip8

/-- The byte that names a key of the keypad. -/
def keyByte (k : Fin 16) : UInt8 := UInt8.ofNat k.val

/-- The key of the keypad that a report presses, if it presses one. -/
def KeyPress.pressed? (p : KeyPress) : Option (Fin 16) :=
  match p.key with
  | .char c => if c = 'c' ∧ p.ctrl then none else keyOfChar c
  | _ => none

/-! ## The layers on their own -/

theorem toNat_keyByte (k : Fin 16) : (keyByte k).toNat = k.val :=
  UInt8.toNat_ofNat_of_lt' (Nat.lt_trans k.isLt (by decide))

theorem keyByte_inj {k k' : Fin 16} (h : keyByte k = keyByte k') : k = k' := by
  rw [← UInt8.toNat_inj, toNat_keyByte, toNat_keyByte] at h
  exact Fin.ext h

theorem keyByte_lt (k : Fin 16) : keyByte k < 16 := by
  rw [UInt8.lt_iff_toNat_lt, toNat_keyByte]
  exact k.isLt

namespace Keyboard

theorem entry_press (kb : Keyboard) (p : KeyPress) (now : Nat) (x : Fin 16) :
    (kb.press p now).1.pressedAt.entry x =
      if p.pressed? = some x then some now else kb.pressedAt.entry x := by
  unfold press KeyPress.pressed?
  cases hkey : p.key with
  | char c =>
    simp only
    split
    · rfl
    · cases hc : keyOfChar c <;> simp
  | _ => rfl

theorem entry_refresh (kb : Keyboard) (now : Nat) (x : Fin 16) :
    (kb.refresh now).pressedAt.entry x = (kb.pressedAt.entry x).filter (isHeld now) := by
  simp [refresh, Table.entry]

theorem mem_heldKeys {kb : Keyboard} {key : UInt8} :
    key ∈ kb.heldKeys ↔ ∃ x, key = keyByte x ∧ (kb.pressedAt.entry x).isSome := by
  simp only [heldKeys, List.mem_filterMap, List.mem_finRange, true_and, Option.map_eq_some_iff,
    Option.isSome_iff_exists]
  exact ⟨fun ⟨x, t, ht, hkey⟩ => ⟨x, hkey.symm, t, ht⟩,
    fun ⟨x, hkey, t, ht⟩ => ⟨x, t, ht, hkey.symm⟩⟩

theorem isHeld_iff {now time : Nat} : isHeld now time = true ↔ now < time + keyHold := by
  rw [isHeld, decide_eq_true_iff, keyHold]
  omega

end Keyboard

/-! ## Reports and looks -/

/-- Something that happens at a keyboard, and when. -/
inductive KeyEvent where
  /-- A key is reported, as it goes down or because it is down still. -/
  | press (p : KeyPress) (time : Nat)
  /-- The keyboard is looked at, and a snapshot is taken. -/
  | look (time : Nat)

def KeyEvent.time : KeyEvent → Nat
  | .press _ time => time
  | .look time => time

def KeyEvent.pressTime? : KeyEvent → Option Nat
  | .press _ time => some time
  | .look _ => none

theorem KeyEvent.time_of_pressTime? {e : KeyEvent} {t : Nat} (h : e.pressTime? = some t) :
    e.time = t := by
  cases e with
  | press p time => exact Option.some.inj h
  | look time => cases h

/-- The times of the reports, first one first. -/
def pressTimes (events : List KeyEvent) : List Nat := events.filterMap KeyEvent.pressTime?

/-- The events are listed in time order. -/
def InOrder (events : List KeyEvent) : Prop := events.Pairwise fun e e' => e.time ≤ e'.time

/-- The key `k` is the only one that is reported. -/
def ReportsOnly (events : List KeyEvent) (k : Fin 16) : Prop :=
  ∀ p time, .press p time ∈ events → p.pressed? = some k

/-- A report of the key `k` among the events is less than the hold time before `now`. -/
def HeldAt (events : List KeyEvent) (k : Fin 16) (now : Nat) : Prop :=
  ∃ p time, .press p time ∈ events ∧ p.pressed? = some k ∧ now < time + keyHold

/-- There is a last look among the events, and the key `k` was held at it. -/
def SeenHeld (events : List KeyEvent) (k : Fin 16) : Prop :=
  ∃ earlier time between, events = earlier ++ .look time :: between ∧
    (∀ t, .look t ∉ between) ∧ HeldAt earlier k time

/-- A keyboard, and the last snapshot that was taken of it. -/
structure Lookout where
  keyboard : Keyboard := {}
  keypad : Keypad := Keypad.idle

namespace Lookout

def perform (l : Lookout) : KeyEvent → Lookout
  | .press p time => { l with keyboard := (l.keyboard.press p time).1 }
  | .look time =>
    let keyboard := l.keyboard.refresh time
    { keyboard, keypad := Keypad.ofKeys keyboard.heldKeys l.keypad }

/-- The keyboard and its last snapshot after events, first one first. -/
def after (l : Lookout) (events : List KeyEvent) : Lookout := events.foldl perform l

/-- The key that a look at the time `now` names as newly pressed. -/
def news (l : Lookout) (now : Nat) : Option UInt8 := (l.perform (.look now)).keypad.newlyPressed

/-- What each look among the events names as newly pressed, first one first. -/
def reports (l : Lookout) : List KeyEvent → List (Option UInt8)
  | [] => []
  | .press p time :: rest => (l.perform (.press p time)).reports rest
  | .look time :: rest => l.news time :: (l.perform (.look time)).reports rest

end Lookout

section

variable {events more : List KeyEvent} {k : Fin 16}

theorem InOrder.le_of_append {e : KeyEvent} (h : InOrder (events ++ e :: more)) :
    ∀ e' ∈ events, e'.time ≤ e.time :=
  fun e' he' => (List.pairwise_append.mp h).2.2 e' he' e List.mem_cons_self

theorem InOrder.left (h : InOrder (events ++ more)) : InOrder events :=
  (List.pairwise_append.mp h).1

theorem ReportsOnly.left (h : ReportsOnly (events ++ more) k) : ReportsOnly events k :=
  fun p time hp => h p time (List.mem_append_left more hp)

theorem heldAt_append_press {p : KeyPress} {time now : Nat} :
    HeldAt (events ++ [.press p time]) k now ↔
      HeldAt events k now ∨ p.pressed? = some k ∧ now < time + keyHold := by
  simp only [HeldAt, List.mem_append, List.mem_singleton, KeyEvent.press.injEq]
  constructor
  · rintro ⟨q, t, hmem | ⟨rfl, rfl⟩, hq⟩
    · exact .inl ⟨q, t, hmem, hq⟩
    · exact .inr hq
  · rintro (⟨q, t, hmem, hq⟩ | hq)
    · exact ⟨q, t, .inl hmem, hq⟩
    · exact ⟨p, time, .inr ⟨rfl, rfl⟩, hq⟩

theorem heldAt_append_look {time now : Nat} :
    HeldAt (events ++ [.look time]) k now ↔ HeldAt events k now := by
  simp [HeldAt]

theorem not_seenHeld_nil : ¬ SeenHeld [] k := by
  rintro ⟨earlier, time, between, hevents, -⟩
  simp at hevents

theorem not_mem_or_eq_last_look (events : List KeyEvent) :
    (∀ t, .look t ∉ events) ∨
      ∃ first t rest, events = first ++ .look t :: rest ∧ ∀ t', .look t' ∉ rest := by
  induction events using List.reverseRecOn with
  | nil => exact .inl fun _ => List.not_mem_nil
  | append_singleton init e ih =>
    cases e with
    | press p time =>
      rcases ih with hnone | ⟨first, t, rest, rfl, hrest⟩
      · exact .inl fun t => by simpa using hnone t
      · exact .inr ⟨first, t, rest ++ [.press p time], by simp, fun t' => by simpa using hrest t'⟩
    | look time => exact .inr ⟨init, time, [], rfl, fun _ => List.not_mem_nil⟩

theorem seenHeld_append_press {p : KeyPress} {time : Nat} :
    SeenHeld (events ++ [.press p time]) k ↔ SeenHeld events k := by
  constructor
  · rintro ⟨earlier, t, between, hevents, hlast, hheld⟩
    rcases List.eq_nil_or_concat between with rfl | ⟨between, e, rfl⟩
    · cases (List.append_inj' hevents rfl).2
    · rw [List.concat_eq_append, ← List.cons_append, ← List.append_assoc] at hevents
      obtain ⟨rfl, -⟩ := List.append_inj' hevents rfl
      refine ⟨earlier, t, between, rfl, fun t hmem => hlast t ?_, hheld⟩
      simp [hmem]
  · rintro ⟨earlier, t, between, rfl, hlast, hheld⟩
    refine ⟨earlier, t, between ++ [.press p time], by simp, fun t => ?_, hheld⟩
    simpa using hlast t

theorem seenHeld_append_look {time : Nat} :
    SeenHeld (events ++ [.look time]) k ↔ HeldAt events k time := by
  constructor
  · rintro ⟨earlier, t, between, hevents, hlast, hheld⟩
    rcases List.eq_nil_or_concat between with rfl | ⟨between, e, rfl⟩
    · obtain ⟨rfl, hlook⟩ := List.append_inj' hevents rfl
      cases hlook
      exact hheld
    · rw [List.concat_eq_append, ← List.cons_append, ← List.append_assoc] at hevents
      obtain ⟨-, he⟩ := List.append_inj' hevents rfl
      obtain rfl := (List.cons.inj he).1
      exact absurd (by simp) (hlast time)
  · intro hheld
    exact ⟨events, time, [], rfl, fun _ => List.not_mem_nil, hheld⟩

/-- A key that was held at one look, and was up at the last look since, has come up at a look in
    between. -/
theorem HeldAt.exists_look_of_not_seenHeld {before between : List KeyEvent} {now : Nat}
    (h : HeldAt before k now) (hunseen : ¬ SeenHeld (before ++ .look now :: between) k) :
    ∃ first t rest, between = first ++ .look t :: rest ∧
      ¬ SeenHeld (before ++ .look now :: (first ++ [.look t])) k := by
  rcases not_mem_or_eq_last_look between with hnone | ⟨first, t, rest, rfl, hrest⟩
  · exact absurd ⟨before, now, between, rfl, hnone, h⟩ hunseen
  · refine ⟨first, t, rest, rfl, fun hseen => hunseen ?_⟩
    rw [← List.cons_append, ← List.append_assoc, seenHeld_append_look] at hseen
    exact ⟨before ++ .look now :: first, t, rest, by simp, hrest, hseen⟩

end

namespace Lookout

/-- The keyboard and the snapshot are as the past has it. -/
structure Recalls (l : Lookout) (past : List KeyEvent) : Prop where
  /-- A report that is recent enough at some later time has not been forgotten. -/
  recent_iff : ∀ k now, (∀ e ∈ past, e.time ≤ now) →
    ((l.keyboard.pressedAt.entry k).any (Keyboard.isHeld now) = true ↔ HeldAt past k now)
  held_iff : ∀ k, l.keypad.isPressed (keyByte k) = true ↔ SeenHeld past k

variable {l : Lookout} {past : List KeyEvent} {k : Fin 16}

theorem Recalls.start : ({} : Lookout).Recalls [] where
  recent_iff k now _ := by
    simp [HeldAt, Table.entry]
  held_iff k := by
    simp [Keypad.isPressed, Keypad.idle, not_seenHeld_nil]

/-- What a look finds held. -/
theorem Recalls.mem_heldKeys_iff (h : l.Recalls past) {now : Nat} (hnow : ∀ e ∈ past, e.time ≤ now)
    {key : UInt8} :
    key ∈ (l.keyboard.refresh now).heldKeys ↔ ∃ x, key = keyByte x ∧ HeldAt past x now := by
  rw [Keyboard.mem_heldKeys]
  refine exists_congr fun x => and_congr_right fun _ => ?_
  rw [Keyboard.entry_refresh, ← h.recent_iff x now hnow]
  cases l.keyboard.pressedAt.entry x with
  | none => simp
  | some time => by_cases hheld : Keyboard.isHeld now time <;> simp [Option.filter, hheld]

theorem Recalls.press (h : l.Recalls past) {p : KeyPress} {time : Nat}
    (htime : ∀ e ∈ past, e.time ≤ time) :
    (l.perform (.press p time)).Recalls (past ++ [.press p time]) where
  recent_iff k now hnow := by
    rw [List.forall_mem_append] at hnow
    show ((l.keyboard.press p time).1.pressedAt.entry k).any _ = true ↔ _
    rw [Keyboard.entry_press, heldAt_append_press]
    split
    · next hp =>
      -- the reports before this one are no newer, so they add nothing
      rw [Option.any_some, Keyboard.isHeld_iff]
      constructor
      · intro hrecent
        exact .inr ⟨hp, hrecent⟩
      · rintro (⟨q, t, hmem, -, hlt⟩ | ⟨-, hrecent⟩)
        · exact Nat.lt_of_lt_of_le hlt (Nat.add_le_add_right (htime _ hmem) _)
        · exact hrecent
    · next hp => rw [h.recent_iff k now hnow.1, or_iff_left fun hnew => hp hnew.1]
  held_iff k := (h.held_iff k).trans seenHeld_append_press.symm

theorem Recalls.look (h : l.Recalls past) {time : Nat} (htime : ∀ e ∈ past, e.time ≤ time) :
    (l.perform (.look time)).Recalls (past ++ [.look time]) where
  recent_iff k now hnow := by
    rw [List.forall_mem_append, List.forall_mem_singleton] at hnow
    obtain ⟨hpast, hlook⟩ := hnow
    show ((l.keyboard.refresh time).pressedAt.entry k).any _ = true ↔ _
    rw [Keyboard.entry_refresh, heldAt_append_look, ← h.recent_iff k now hpast]
    cases l.keyboard.pressedAt.entry k with
    | none => rfl
    | some t =>
      -- what the look forgets is too old at any later time as well
      have hlater : Keyboard.isHeld now t = true → Keyboard.isHeld time t = true := by
        rw [Keyboard.isHeld_iff, Keyboard.isHeld_iff]
        exact Nat.lt_of_le_of_lt hlook
      by_cases hheld : Keyboard.isHeld time t = true
      · simp [Option.filter, hheld]
      · simpa [Option.filter, hheld] using mt hlater hheld
  held_iff k := by
    show (Keypad.ofKeys _ _).isPressed _ = true ↔ _
    rw [Keypad.isPressed_iff_mem (keyByte_lt k), seenHeld_append_look, h.mem_heldKeys_iff htime]
    constructor
    · rintro ⟨x, hx, hheld⟩
      rwa [keyByte_inj hx]
    · intro hheld
      exact ⟨k, rfl, hheld⟩

theorem Recalls.after (h : l.Recalls past) {events : List KeyEvent}
    (horder : InOrder (past ++ events)) : (l.after events).Recalls (past ++ events) := by
  induction events generalizing l past with
  | nil =>
    rw [List.append_nil]
    exact h
  | cons e rest ih =>
    have htime : ∀ e' ∈ past, e'.time ≤ e.time := horder.le_of_append
    have hnext : (l.perform e).Recalls (past ++ [e]) := by
      cases e with
      | press p time => exact h.press htime
      | look time => exact h.look htime
    rw [List.append_cons] at horder ⊢
    exact ih hnext horder

/-! ## News -/

theorem isNews_keyByte (previous : Keypad) (x : Fin 16) :
    previous.isNews (keyByte x) = !previous.isPressed (keyByte x) := by
  simp [Keypad.isNews, keyByte_lt x]

/-- A key that a look names is held then and was not held at the look before. -/
theorem Recalls.held_of_news (h : l.Recalls past) {now : Nat} (hnow : ∀ e ∈ past, e.time ≤ now)
    {key : UInt8} (hnews : l.news now = some key) :
    ∃ x, key = keyByte x ∧ HeldAt past x now ∧ ¬ SeenHeld past x := by
  have hfind : (l.keyboard.refresh now).heldKeys.find? l.keypad.isNews = some key := hnews
  obtain ⟨x, rfl, hheld⟩ := (h.mem_heldKeys_iff hnow).mp (List.mem_of_find?_eq_some hfind)
  refine ⟨x, rfl, hheld, fun hseen => ?_⟩
  have hisNews := List.find?_some hfind
  rw [isNews_keyByte, (h.held_iff x).mpr hseen] at hisNews
  cases hisNews

/-- If only one key is ever reported, a look names it just when it is held and was not held at the
    look before. -/
theorem Recalls.news_iff (h : l.Recalls past) {now : Nat} (hnow : ∀ e ∈ past, e.time ≤ now)
    (honly : ReportsOnly past k) :
    l.news now = some (keyByte k) ↔ HeldAt past k now ∧ ¬ SeenHeld past k := by
  constructor
  · intro hnews
    obtain ⟨x, hx, hheld⟩ := h.held_of_news hnow hnews
    rwa [keyByte_inj hx]
  · rintro ⟨hheld, hunseen⟩
    have hmem : keyByte k ∈ (l.keyboard.refresh now).heldKeys :=
      (h.mem_heldKeys_iff hnow).mpr ⟨k, rfl, hheld⟩
    have hisNews : l.keypad.isNews (keyByte k) = true := by
      rw [isNews_keyByte, Bool.not_eq_true', Bool.eq_false_iff]
      exact mt (h.held_iff k).mp hunseen
    obtain ⟨key, hkey⟩ : ∃ key, l.news now = some key :=
      Option.isSome_iff_exists.mp (List.find?_isSome.mpr ⟨_, hmem, hisNews⟩)
    -- whatever key is named has been reported, so it is this one
    obtain ⟨x, rfl, ⟨p, t, hp, hx, -⟩, -⟩ := h.held_of_news hnow hkey
    rw [hkey, Option.some.inj (hx.symm.trans (honly p t hp))]

end Lookout

/-! ## Rows of reports -/

/-- Every report comes less than the hold time after the one before. -/
def Unbroken (events : List KeyEvent) : Prop :=
  (pressTimes events).IsChain fun t t' => t' < t + keyHold

/-- A look falls between the first report and the hold time after the last one. -/
def LookedDuring (events : List KeyEvent) : Prop :=
  ∃ before now later, events = before ++ .look now :: later ∧ pressTimes before ≠ [] ∧
    ∃ last ∈ (pressTimes events).getLast?, now < last + keyHold

section

variable {events before later : List KeyEvent} {k : Fin 16} {now : Nat}

theorem mem_pressTimes {t : Nat} : t ∈ pressTimes events ↔ ∃ p, .press p t ∈ events := by
  rw [pressTimes, List.mem_filterMap]
  constructor
  · rintro ⟨e, he, ht⟩
    cases e with
    | press p time => exact ⟨p, Option.some.inj ht ▸ he⟩
    | look time => cases ht
  · rintro ⟨p, hp⟩
    exact ⟨_, hp, rfl⟩

theorem ReportsOnly.heldAt_iff (honly : ReportsOnly events k) :
    HeldAt events k now ↔ ∃ t ∈ pressTimes events, now < t + keyHold := by
  constructor
  · rintro ⟨p, t, hp, -, hlt⟩
    exact ⟨t, mem_pressTimes.mpr ⟨p, hp⟩, hlt⟩
  · rintro ⟨t, ht, hlt⟩
    obtain ⟨p, hp⟩ := mem_pressTimes.mp ht
    exact ⟨p, t, hp, honly p t hp, hlt⟩

theorem pressTimes_ne_nil_of_heldAt (h : HeldAt events k now) : pressTimes events ≠ [] := by
  obtain ⟨p, t, hp, -⟩ := h
  exact List.ne_nil_of_mem (mem_pressTimes.mpr ⟨p, hp⟩)

theorem SeenHeld.pressTimes_ne_nil (h : SeenHeld events k) : pressTimes events ≠ [] := by
  obtain ⟨earlier, time, between, rfl, -, hheld⟩ := h
  rw [pressTimes, List.filterMap_append]
  exact List.append_ne_nil_of_left_ne_nil (pressTimes_ne_nil_of_heldAt hheld) _

theorem InOrder.le_last (h : InOrder events) {last t : Nat}
    (hlast : last ∈ (pressTimes events).getLast?) (ht : t ∈ pressTimes events) : t ≤ last := by
  have hsorted : (pressTimes events).Pairwise (· ≤ ·) := by
    refine List.Pairwise.filterMap KeyEvent.pressTime? (fun e e' hle t ht t' ht' => ?_) h
    rwa [KeyEvent.time_of_pressTime? ht, KeyEvent.time_of_pressTime? ht'] at hle
  obtain ⟨earlier, hearlier⟩ := List.getLast?_eq_some_iff.mp hlast
  rw [hearlier, List.mem_append, List.mem_singleton] at ht
  rw [hearlier, List.pairwise_append] at hsorted
  rcases ht with hmem | rfl
  · exact hsorted.2.2 t hmem last List.mem_cons_self
  · exact Nat.le_refl t

/-- While the reports are unbroken, the key is held at every look from the first report until the
    hold time after the last one, and at no other. -/
theorem Unbroken.heldAt_iff (hunbroken : Unbroken (before ++ .look now :: later))
    (horder : InOrder (before ++ .look now :: later))
    (honly : ReportsOnly (before ++ .look now :: later) k) :
    HeldAt before k now ↔ pressTimes before ≠ [] ∧
      ∃ last ∈ (pressTimes (before ++ .look now :: later)).getLast?, now < last + keyHold := by
  have hsplit : pressTimes (before ++ .look now :: later) = pressTimes before ++ pressTimes later :=
    List.filterMap_append
  constructor
  · intro hheld
    have hne := pressTimes_ne_nil_of_heldAt hheld
    obtain ⟨t, ht, hlt⟩ := honly.left.heldAt_iff.mp hheld
    obtain ⟨last, hlast⟩ : ∃ last, last ∈ (pressTimes (before ++ .look now :: later)).getLast? := by
      refine Option.isSome_iff_exists.mp ?_
      rw [List.getLast?_isSome, hsplit]
      exact List.append_ne_nil_of_left_ne_nil hne _
    have hle : t ≤ last := horder.le_last hlast (hsplit ▸ List.mem_append_left _ ht)
    exact ⟨hne, last, hlast, by omega⟩
  · rintro ⟨hne, last, hlast, hlt⟩
    obtain ⟨u, hu⟩ := Option.isSome_iff_exists.mp (List.getLast?_isSome.mpr hne)
    refine honly.left.heldAt_iff.mpr ⟨u, List.mem_of_getLast? hu, ?_⟩
    cases hlater : pressTimes later with
    | nil =>
      rw [hsplit, hlater, List.append_nil, hu] at hlast
      cases hlast
      exact hlt
    | cons v rest =>
      -- the next report comes before the key could have expired
      rw [Unbroken, hsplit, hlater, List.isChain_append] at hunbroken
      have hnext : v < u + keyHold := hunbroken.2.2 u hu v rfl
      obtain ⟨q, hq⟩ := mem_pressTimes.mp (hlater ▸ List.mem_cons_self : v ∈ pressTimes later)
      have hle : now ≤ v :=
        (List.pairwise_cons.mp (List.pairwise_append.mp horder).2.1).1 (.press q v) hq
      exact Nat.lt_of_le_of_lt hle hnext

/-- Some look that is still to come finds the key held. -/
def HeldLater (past rest : List KeyEvent) (k : Fin 16) : Prop :=
  ∃ before now later, rest = before ++ .look now :: later ∧ HeldAt (past ++ before) k now

variable {past rest : List KeyEvent}

theorem not_heldLater_nil : ¬ HeldLater past [] k := by
  rintro ⟨before, now, later, hrest, -⟩
  simp at hrest

theorem heldLater_cons {e : KeyEvent} :
    HeldLater past (e :: rest) k ↔
      (∃ now, e = .look now ∧ HeldAt past k now) ∨ HeldLater (past ++ [e]) rest k := by
  constructor
  · rintro ⟨before, now, later, hrest, hheld⟩
    cases before with
    | nil =>
      rw [List.append_nil] at hheld
      exact .inl ⟨now, (List.cons.inj hrest).1, hheld⟩
    | cons e' before =>
      obtain ⟨rfl, rfl⟩ := List.cons.inj hrest
      rw [List.append_cons] at hheld
      exact .inr ⟨before, now, later, rfl, hheld⟩
  · rintro (⟨now, rfl, hheld⟩ | ⟨before, now, later, rfl, hheld⟩)
    · exact ⟨[], now, rest, rfl, by rwa [List.append_nil]⟩
    · exact ⟨e :: before, now, later, rfl, by rwa [List.append_cons]⟩

theorem heldLater_press_cons {p : KeyPress} {time : Nat} :
    HeldLater past (.press p time :: rest) k ↔ HeldLater (past ++ [.press p time]) rest k := by
  simp [heldLater_cons]

theorem heldLater_look_cons :
    HeldLater past (.look now :: rest) k ↔
      HeldAt past k now ∨ HeldLater (past ++ [.look now]) rest k := by
  simp [heldLater_cons]

theorem Unbroken.heldLater_iff (hunbroken : Unbroken events) (horder : InOrder events)
    (honly : ReportsOnly events k) : HeldLater [] events k ↔ LookedDuring events := by
  constructor
  · rintro ⟨before, now, later, rfl, hheld⟩
    exact ⟨before, now, later, rfl, (hunbroken.heldAt_iff horder honly).mp hheld⟩
  · rintro ⟨before, now, later, rfl, hduring⟩
    exact ⟨before, now, later, rfl, (hunbroken.heldAt_iff horder honly).mpr hduring⟩

/-- While the reports are unbroken, a key that has expired once is not held again. -/
theorem Unbroken.not_heldLater (hunbroken : Unbroken (past ++ .look now :: rest))
    (horder : InOrder (past ++ .look now :: rest))
    (honly : ReportsOnly (past ++ .look now :: rest) k) (hpast : pressTimes past ≠ [])
    (hexpired : ¬ HeldAt past k now) : ¬ HeldLater (past ++ [.look now]) rest k := by
  rintro ⟨before, now', later, rfl, hheld⟩
  have hle : now ≤ now' :=
    (List.pairwise_cons.mp (List.pairwise_append.mp horder).2.1).1 (.look now') (by simp)
  have hsame : past ++ .look now :: (before ++ .look now' :: later)
      = past ++ [.look now] ++ before ++ .look now' :: later := by simp
  rw [hunbroken.heldAt_iff horder honly, hsame] at hexpired
  rw [hsame] at hunbroken horder honly
  obtain ⟨-, last, hlast, hlt⟩ := (hunbroken.heldAt_iff horder honly).mp hheld
  exact hexpired ⟨hpast, last, hlast, Nat.lt_of_le_of_lt hle hlt⟩

end

namespace Lookout

variable {l : Lookout} {past rest : List KeyEvent} {k : Fin 16}

open scoped Classical in
/-- While the reports are unbroken, a key is named once more if the last look has not seen it held
    and a look that is still to come does, and else not at all. -/
theorem Recalls.count_reports (h : l.Recalls past) (horder : InOrder (past ++ rest))
    (honly : ReportsOnly (past ++ rest) k) (hunbroken : Unbroken (past ++ rest)) :
    (l.reports rest).count (some (keyByte k)) =
      if ¬ SeenHeld past k ∧ HeldLater past rest k then 1 else 0 := by
  induction rest generalizing l past with
  | nil =>
    rw [if_neg fun hlater => not_heldLater_nil hlater.2]
    rfl
  | cons e rest ih =>
    have horder' : InOrder (past ++ [e] ++ rest) := List.append_cons past e rest ▸ horder
    have honly' : ReportsOnly (past ++ [e] ++ rest) k := List.append_cons past e rest ▸ honly
    have hunbroken' : Unbroken (past ++ [e] ++ rest) := List.append_cons past e rest ▸ hunbroken
    cases e with
    | press p time =>
      have htime : ∀ e ∈ past, e.time ≤ time := horder.le_of_append
      rw [reports, ih (h.press htime) horder' honly' hunbroken', seenHeld_append_press,
        heldLater_press_cons]
    | look now =>
      have htime : ∀ e ∈ past, e.time ≤ now := horder.le_of_append
      have hnews := h.news_iff htime honly.left
      rw [reports, List.count_cons, ih (h.look htime) horder' honly' hunbroken',
        seenHeld_append_look, heldLater_look_cons]
      by_cases hheld : HeldAt past k now
      · -- this look names the key if the one before did not see it; then no later one does
        by_cases hseen : SeenHeld past k <;> simp [hnews, hheld, hseen]
      · by_cases hseen : SeenHeld past k
        · have hgone := hunbroken.not_heldLater horder honly hseen.pressTimes_ne_nil hheld
          simp [hnews, hheld, hseen, hgone]
        · simp [hnews, hheld, hseen]

/-- **A key that repeats is one press.** Whatever the times of the reports of one key and of the
    looks, a look names that key just when a report before it is less than the hold time old and the
    look before, if there was one, did not find such a report; no look names another key. So a row
    of reports, each less than the hold time after the one before, is named once if a look falls
    between the first report and the hold time after the last one, and not at all if none does. And
    whenever the key is named twice, a look in between has seen it up. -/
theorem autoRepeat_is_one_press (k : Fin 16) (events : List KeyEvent) (horder : InOrder events)
    (honly : ReportsOnly events k) :
    (∀ before now later, events = before ++ .look now :: later →
      ((({} : Lookout).after before).news now = some (keyByte k) ↔
        HeldAt before k now ∧ ¬ SeenHeld before k) ∧
      ∀ key, (({} : Lookout).after before).news now = some key → key = keyByte k) ∧
    (Unbroken events → LookedDuring events →
      (({} : Lookout).reports events).count (some (keyByte k)) = 1) ∧
    (Unbroken events → ¬ LookedDuring events →
      (({} : Lookout).reports events).count (some (keyByte k)) = 0) ∧
    ∀ before now between now' later,
      events = before ++ .look now :: (between ++ .look now' :: later) →
      (({} : Lookout).after before).news now = some (keyByte k) →
      (({} : Lookout).after (before ++ .look now :: between)).news now' = some (keyByte k) →
      ∃ first t rest, between = first ++ .look t :: rest ∧
        (({} : Lookout).after (before ++ .look now :: (first ++ [.look t]))).keypad.isPressed
          (keyByte k) = false := by
  have hrecalls : ∀ {past rest}, events = past ++ rest → (({} : Lookout).after past).Recalls past :=
    fun hevents => Recalls.start.after (hevents ▸ horder).left
  refine ⟨?_, ?_, ?_, ?_⟩
  · rintro before now later hevents
    have htime : ∀ e ∈ before, e.time ≤ now := (hevents ▸ horder).le_of_append
    have hpast : ReportsOnly before k := (hevents ▸ honly).left
    refine ⟨(hrecalls hevents).news_iff htime hpast, fun key hnews => ?_⟩
    obtain ⟨x, rfl, ⟨p, t, hp, hx, -⟩, -⟩ := (hrecalls hevents).held_of_news htime hnews
    rw [Option.some.inj (hx.symm.trans (hpast p t hp))]
  · intro hunbroken hlooked
    rw [Recalls.start.count_reports horder honly hunbroken]
    exact if_pos ⟨not_seenHeld_nil, (hunbroken.heldLater_iff horder honly).mpr hlooked⟩
  · intro hunbroken hlooked
    rw [Recalls.start.count_reports horder honly hunbroken]
    exact if_neg fun h => hlooked ((hunbroken.heldLater_iff horder honly).mp h.2)
  · intro before now between now' later hevents hnews hnews'
    have hsplit : events = (before ++ .look now :: between) ++ .look now' :: later := by
      simp [hevents]
    have hheld := (((hrecalls hevents).news_iff (hevents ▸ horder).le_of_append
      (hevents ▸ honly).left).mp hnews).1
    have hunseen := (((hrecalls hsplit).news_iff (hsplit ▸ horder).le_of_append
      (hsplit ▸ honly).left).mp hnews').2
    obtain ⟨first, t, rest, rfl, hup⟩ := hheld.exists_look_of_not_seenHeld hunseen
    have hcut : events = (before ++ .look now :: (first ++ [.look t])) ++
        (rest ++ .look now' :: later) := by simp [hevents]
    refine ⟨first, t, rest, rfl, ?_⟩
    rw [Bool.eq_false_iff]
    exact mt ((hrecalls hcut).held_iff k).mp hup

/-- The key `q` is the key 4. It is reported three times, with a look at every moment that could
    make a difference: before it, between the reports, when the hold time has almost run out and
    when it just has. A report after that is a press of its own. -/
theorem repeatedThenPressed_is_two_presses :
    let q : KeyPress := { key := .char 'q' }
    let row : List KeyEvent :=
      [.look 0, .press q 10, .look 20, .press { q with key := .char 'Q' } 150000000,
        .look 210000000, .press q 349999999, .look 549999998, .look 549999999]
    let again : List KeyEvent := row ++ [.press q 549999999]
    (InOrder row ∧ ReportsOnly row 4 ∧ Unbroken row ∧ LookedDuring row ∧
      (({} : Lookout).reports row).count (some (keyByte 4)) = 1) ∧
    (InOrder (again ++ [.look 549999999]) ∧ ReportsOnly (again ++ [.look 549999999]) 4 ∧
      HeldAt again 4 549999999 ∧ ¬ SeenHeld again 4 ∧
      (({} : Lookout).after again).news 549999999 = some (keyByte 4) ∧
      ∃ first t rest, row.drop 3 ++ [.press q 549999999] = first ++ .look t :: rest ∧
        (({} : Lookout).after (row.take 2 ++ .look 20 :: (first ++ [.look t]))).keypad.isPressed
          (keyByte 4) = false) := by
  intro q row again
  have horder : InOrder (again ++ [.look 549999999]) := by
    unfold InOrder
    decide
  have honly : ReportsOnly (again ++ [.look 549999999]) 4 := by
    intro p time hp
    simp only [again, row, List.cons_append, List.nil_append, List.mem_cons, List.not_mem_nil,
      KeyEvent.press.injEq, reduceCtorEq, false_or, or_false] at hp
    rcases hp with ⟨rfl, -⟩ | ⟨rfl, -⟩ | ⟨rfl, -⟩ | ⟨rfl, -⟩ <;> rfl
  have hrow : InOrder row := horder.left.left
  have hunbroken : Unbroken row := by
    unfold Unbroken
    decide
  have hlooked : LookedDuring row :=
    ⟨row.take 2, 20, row.drop 3, rfl, by decide, 349999999, rfl, by decide⟩
  have hheld : HeldAt again 4 549999999 := by
    rw [honly.left.heldAt_iff]
    decide
  have hunseen : ¬ SeenHeld again 4 := by
    rw [seenHeld_append_press]
    show ¬ SeenHeld (row.take 7 ++ [.look 549999999]) 4
    rw [seenHeld_append_look, honly.left.left.left.heldAt_iff]
    decide
  obtain ⟨-, hcount, -, -⟩ := autoRepeat_is_one_press 4 row hrow honly.left.left
  obtain ⟨hnews, -, -, hagain⟩ := autoRepeat_is_one_press 4 _ horder honly
  have hnamed := (hnews again 549999999 [] rfl).1.mpr ⟨hheld, hunseen⟩
  have hfirst : (({} : Lookout).after (row.take 2)).news 20 = some (keyByte 4) := by
    refine (hnews (row.take 2) 20
      (row.drop 3 ++ [.press q 549999999, .look 549999999]) rfl).1.mpr ?_
    have hbegin : ReportsOnly (row.take 2 ++ (row.drop 2 ++ [.press q 549999999])) 4 := honly.left
    refine ⟨hbegin.left.heldAt_iff.mpr (by decide), ?_⟩
    show ¬ SeenHeld ([.look 0] ++ [.press q 10]) 4
    rw [seenHeld_append_press]
    show ¬ SeenHeld ([] ++ [.look 0]) 4
    rw [seenHeld_append_look]
    simp [HeldAt]
  have hsame : row.take 2 ++ .look 20 :: (row.drop 3 ++ [.press q 549999999]) = again := rfl
  refine ⟨⟨hrow, honly.left.left, hunbroken, hlooked, hcount hunbroken hlooked⟩, horder, honly,
    hheld, hunseen, hnamed, ?_⟩
  exact hagain (row.take 2) 20 (row.drop 3 ++ [.press q 549999999]) 549999999 [] rfl hfirst
    (by rw [hsame]; exact hnamed)

end Lookout

end Chip8
