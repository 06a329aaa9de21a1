import Chip8.Proofs.Repeats

set_option autoImplicit false

/-! # Which keys are held

A keyboard is looked at from time to time, and each look forgets the reports that are too old by
then. Still, what a look finds held does not depend on the looks before it: a key is held just when
the last report of it is less than the hold time old. That it is held when *some* report of it is
recent enough is known from `Lookout.Recalls`, and in time order the last report is the most recent
one (`heldAt_iff_lastReport?`).

A report presses the key that the small letter of its character stands for, and no other report
presses a key (`pressed?_eq_some_iff`). The reports that ask to leave, Esc and Ctrl-C, press none,
and a wish to leave is never forgotten (`Keyboard.quit_after_iff`). -/

namespace Chip8

/-! ## What a report does -/

/-- The report is Esc or Ctrl-C. -/
def KeyPress.AsksToLeave (p : KeyPress) : Prop := p.key = .esc ∨ p.key = .char 'c' ∧ p.ctrl = true

theorem keyChars_inj {k k' : Fin 16} (h : keyChars[k.val]? = keyChars[k'.val]?) : k = k' := by
  revert k k'
  decide

theorem keyOfChar_eq_some_iff {c : Char} {k : Fin 16} :
    keyOfChar c = some k ↔ keyChars[k.val]? = some c.toLower := by
  have hfound {k : Fin 16} (h : keyOfChar c = some k) : keyChars[k.val]? = some c.toLower := by
    have hk := List.find?_some h
    exact beq_iff_eq.mp hk
  constructor
  · exact hfound
  · intro h
    obtain ⟨k', hk'⟩ : ∃ k', keyOfChar c = some k' := by
      refine Option.isSome_iff_exists.mp (List.find?_isSome.mpr ⟨k, List.mem_finRange k, ?_⟩)
      exact beq_iff_eq.mpr h
    -- no two keys have the same character, so the first key that is found is this one
    rw [hk', keyChars_inj ((hfound hk').trans h.symm)]

/-- Every key has a character, and no other characters than that and its capital stand for it. -/
theorem exists_keyOfChar_iff (k : Fin 16) :
    ∃ c, keyOfChar c = some k ∧ ∀ c', keyOfChar c' = some k ↔ c'.toLower = c.toLower := by
  have hsmall : ∀ k : Fin 16, keyChars[k.val]? = some (keyChars.getD k ' ').toLower := by decide
  refine ⟨keyChars.getD k ' ', keyOfChar_eq_some_iff.mpr (hsmall k), fun c' => ?_⟩
  rw [keyOfChar_eq_some_iff, hsmall, Option.some_inj, eq_comm]

theorem pressed?_eq_some_iff {p : KeyPress} {k : Fin 16} :
    p.pressed? = some k ↔
      ∃ c, p.key = .char c ∧ ¬ p.AsksToLeave ∧ keyChars[k.val]? = some c.toLower := by
  unfold KeyPress.pressed? KeyPress.AsksToLeave
  cases hkey : p.key with
  | char c =>
    simp only [Key.char.injEq, reduceCtorEq, false_or, exists_eq_left', ← keyOfChar_eq_some_iff]
    by_cases hctrl : c = 'c' ∧ p.ctrl = true
    · simp [hctrl]
    · simp [hctrl]
  | _ => simp

namespace Keyboard

theorem quit_press (kb : Keyboard) (p : KeyPress) (now : Nat) :
    (kb.press p now).1.quit = true ↔ kb.quit = true ∨ p.AsksToLeave := by
  unfold press KeyPress.AsksToLeave
  cases hkey : p.key with
  | esc => simp
  | char c =>
    simp only [Key.char.injEq, reduceCtorEq, false_or]
    by_cases hctrl : c = 'c' ∧ p.ctrl = true
    · simp [hctrl]
    · rw [if_neg hctrl, or_iff_left hctrl]
      cases keyOfChar c <;> rfl
  | _ => simp

/-! ## A keyboard in use -/

/-- The keyboard after an event. -/
def handle (kb : Keyboard) : KeyEvent → Keyboard
  | .press p time => (kb.press p time).1
  | .look time => kb.refresh time

/-- The keyboard after events, first one first. -/
def after (kb : Keyboard) (events : List KeyEvent) : Keyboard := events.foldl handle kb

variable {kb : Keyboard} {events more : List KeyEvent}

theorem after_append (kb : Keyboard) (events more : List KeyEvent) :
    kb.after (events ++ more) = (kb.after events).after more :=
  List.foldl_append

theorem quit_handle (kb : Keyboard) (e : KeyEvent) :
    (kb.handle e).quit = true ↔
      kb.quit = true ∨ ∃ p time, e = .press p time ∧ p.AsksToLeave := by
  cases e with
  | press p time => simp [handle, quit_press]
  | look time => simp [handle, refresh]

theorem quit_after_iff :
    (kb.after events).quit = true ↔
      kb.quit = true ∨ ∃ p time, .press p time ∈ events ∧ p.AsksToLeave := by
  induction events generalizing kb with
  | nil => simp [after]
  | cons e rest ih =>
    have hfirst : kb.after (e :: rest) = (kb.handle e).after rest := rfl
    rw [hfirst, ih, quit_handle, or_assoc]
    refine or_congr_right ?_
    simp only [List.mem_cons, or_and_right, exists_or, eq_comm]

theorem keyboard_lookout_after (l : Lookout) (events : List KeyEvent) :
    (l.after events).keyboard = l.keyboard.after events := by
  induction events generalizing l with
  | nil => rfl
  | cons e rest ih =>
    have hfirst : (l.perform e).keyboard = l.keyboard.handle e := by cases e <;> rfl
    show ((l.perform e).after rest).keyboard = (l.keyboard.handle e).after rest
    rw [ih, hfirst]

/-- What a look finds held, in ascending order. -/
theorem heldKeys_refresh (kb : Keyboard) (now : Nat) :
    (kb.refresh now).heldKeys =
      ((List.finRange 16).filter fun k => (kb.pressedAt.entry k).any (isHeld now)).map keyByte := by
  unfold heldKeys
  induction List.finRange 16 with
  | nil => rfl
  | cons k rest ih =>
    rw [List.filterMap_cons, List.filter_cons, entry_refresh, ih]
    cases hentry : kb.pressedAt.entry k with
    | none => simp
    | some time => by_cases hheld : isHeld now time <;> simp [hheld, Option.filter, keyByte]

end Keyboard

/-! ## Last reports -/

/-- When an event reports a key, if it does. -/
def KeyEvent.reportTime? (k : Fin 16) : KeyEvent → Option Nat
  | .press p time => if p.pressed? = some k then some time else none
  | .look _ => none

/-- When a key was reported last among the events, if it was reported. -/
def lastReport? (k : Fin 16) (events : List KeyEvent) : Option Nat :=
  (events.filterMap (KeyEvent.reportTime? k)).getLast?

section

variable {events : List KeyEvent} {k : Fin 16} {now : Nat}

theorem lastReport?_append_press (p : KeyPress) (time : Nat) :
    lastReport? k (events ++ [.press p time]) =
      if p.pressed? = some k then some time else lastReport? k events := by
  rw [lastReport?, List.filterMap_append, lastReport?]
  by_cases hp : p.pressed? = some k <;> simp [KeyEvent.reportTime?, hp]

theorem lastReport?_append_look (time : Nat) :
    lastReport? k (events ++ [.look time]) = lastReport? k events := by
  rw [lastReport?, List.filterMap_append, lastReport?]
  simp [KeyEvent.reportTime?]

/-- In time order a key is held by some report if and only if it is held by the last one. -/
theorem heldAt_iff_lastReport? (horder : InOrder events) :
    HeldAt events k now ↔ (lastReport? k events).any (Keyboard.isHeld now) = true := by
  induction events using List.reverseRecOn with
  | nil => simp [HeldAt, lastReport?]
  | append_singleton events e ih =>
    specialize ih horder.left
    cases e with
    | look time => rw [heldAt_append_look, lastReport?_append_look, ih]
    | press p time =>
      rw [heldAt_append_press, lastReport?_append_press]
      by_cases hp : p.pressed? = some k
      · rw [if_pos hp, Option.any_some, Keyboard.isHeld_iff]
        constructor
        · rintro (⟨q, t, hmem, -, hlt⟩ | ⟨-, hlt⟩)
          · have hle : t ≤ time := horder.le_of_append _ hmem
            omega
          · exact hlt
        · exact fun hlt => .inr ⟨hp, hlt⟩
      · rw [if_neg hp, ih, or_iff_left fun h => hp h.1]

theorem pairwise_keyBytes (held : Fin 16 → Bool) :
    (((List.finRange 16).filter held).map keyByte).Pairwise (· < ·) := by
  rw [List.pairwise_map]
  refine ((List.pairwise_lt_finRange 16).filter held).imp fun {k k'} hlt => ?_
  rw [UInt8.lt_iff_toNat_lt, toNat_keyByte, toNat_keyByte]
  exact hlt

end

namespace Keyboard

/-- **A key is held by its last report.** Whatever is reported in time order and whenever the
    keyboard is looked at, a look finds held, in ascending order, just those keys whose last report
    is less than 200 ms old. A user who has once asked to leave, with Esc or Ctrl-C, is never taken
    to have changed their mind. A report presses a key if and only if it has a character, does not
    ask to leave, and the small letter of the character stands for the key; for each key there is
    one such character, up to capitals. -/
theorem held_by_last_report (events : List KeyEvent) (horder : InOrder events) :
    (∀ before now later, events = before ++ .look now :: later →
      let held := (({} : Keyboard).after (before ++ [.look now])).heldKeys
      held = ((List.finRange 16).filter fun k =>
        (lastReport? k before).any fun time => now - time < 200000000).map keyByte ∧
      held.Pairwise (· < ·)) ∧
    ((({} : Keyboard).after events).quit = true ↔
      ∃ p time, .press p time ∈ events ∧ p.AsksToLeave) ∧
    (∀ more, (({} : Keyboard).after events).quit = true →
      (({} : Keyboard).after (events ++ more)).quit = true) ∧
    (∀ (kb : Keyboard) p now k, (kb.press p now).1.pressedAt.entry k =
      if p.pressed? = some k then some now else kb.pressedAt.entry k) ∧
    (∀ (p : KeyPress) k, p.pressed? = some k ↔
      ∃ c, p.key = .char c ∧ ¬ p.AsksToLeave ∧ keyChars[k.val]? = some c.toLower) ∧
    ∀ k, ∃ c, keyOfChar c = some k ∧ ∀ c', keyOfChar c' = some k ↔ c'.toLower = c.toLower := by
  refine ⟨?_, ?_, ?_, fun kb p now k => kb.entry_press p now k, fun p k => pressed?_eq_some_iff,
    exists_keyOfChar_iff⟩
  · rintro before now later rfl
    intro held
    have hrecalls : (({} : Lookout).after before).Recalls before :=
      Lookout.Recalls.start.after horder.left
    have hheld : held = ((List.finRange 16).filter fun k =>
        (lastReport? k before).any (isHeld now)).map keyByte := by
      show (({} : Keyboard).after (before ++ [.look now])).heldKeys = _
      rw [after_append]
      show ((({} : Keyboard).after before).refresh now).heldKeys = _
      rw [heldKeys_refresh]
      congr 2
      funext k
      rw [Bool.eq_iff_iff, ← heldAt_iff_lastReport? horder.left,
        ← hrecalls.recent_iff k now horder.le_of_append, keyboard_lookout_after]
    refine ⟨hheld, ?_⟩
    rw [hheld]
    exact pairwise_keyBytes _
  · rw [quit_after_iff, or_iff_right (by decide)]
  · intro more hquit
    rw [after_append, quit_after_iff]
    exact .inl hquit

/-- The keys 0 and F are reported 100 ms apart, and each is let go 200 ms later, to the nanosecond.
    The key 0 is held again once it is reported as a capital; the key 4 that went down just before
    is held as well, but not the key B of the Ctrl-C between them. -/
theorem keys_let_go_to_the_nanosecond :
    let events : List KeyEvent :=
      [.press { key := .char 'x' } 0, .press { key := .char 'v' } 100000000, .look 199999999,
        .look 200000000, .press { key := .char 'q' } 250000000,
        .press { key := .char 'c', ctrl := true } 250000000, .press { key := .null } 250000000,
        .press { key := .char 'X' } 260000000, .look 300000000]
    InOrder events ∧
    (({} : Keyboard).after (events.take 3)).heldKeys = [0x0, 0xf] ∧
    (({} : Keyboard).after (events.take 4)).heldKeys = [0xf] ∧
    (({} : Keyboard).after events).heldKeys = [0x0, 0x4] ∧
    (({} : Keyboard).after events).quit = true := by
  intro events
  have horder : InOrder events := by
    unfold InOrder
    decide
  obtain ⟨hheld, hquit, -⟩ := held_by_last_report events horder
  refine ⟨horder, ?_, ?_, ?_, hquit.mpr ?_⟩
  · exact (hheld (events.take 2) 199999999 (events.drop 3) rfl).1.trans (by decide)
  · exact (hheld (events.take 3) 200000000 (events.drop 4) rfl).1.trans (by decide)
  · exact (hheld (events.take 8) 300000000 [] rfl).1.trans (by decide)
  · exact ⟨{ key := .char 'c', ctrl := true }, 250000000, by simp [events], .inr ⟨rfl, rfl⟩⟩

end Keyboard

end Chip8
