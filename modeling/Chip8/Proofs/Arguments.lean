import Chip8.CommandLine.Reader
import Mathlib

set_option autoImplicit false

/-! # What is written on a command line

A command line is made of settings: the path of a program, options with their values, and flags, in
any order, each written as one or two arguments (`Setting.Written`). The reader looks at the value
of an option only when it comes to the next argument, so it knows at any time what it has taken in
and what is still open. What counts is the two together, which is `Reading.due`: seen so, a setting
is taken in as soon as it has been read (`Reading.hears_of_written`), and a line setting by setting
(`readArguments_eq`). Taking in a setting is refused only if there has been another one on the same
topic, so settings on different topics are all taken in, whatever their order (`Given.foldlM_hear`),
and if one topic comes again then this is complained of (`Given.foldlM_hear_of_twice`). -/

namespace Chip8

/-! ## Settings -/

/-- An argument that takes a value, with its value. -/
inductive Entry where
  | rom (path : String)
  | ips (rate : Nat)
  | renderer (r : Renderer)
  | maxCycles (count : Nat)
  | seed (n : Nat)
  | logLevel (level : Option Level)
  deriving DecidableEq

/-- Something that is said on a command line. -/
inductive Setting where
  | entry (e : Entry)
  | flag (f : Flag)
  deriving DecidableEq

def Entry.slot : Entry → Slot
  | rom _ => .rom
  | ips _ => .ips
  | renderer _ => .renderer
  | maxCycles _ => .maxCycles
  | seed _ => .seed
  | logLevel _ => .logLevel

/-- What a setting is about. No more than one setting on a topic may be given. -/
inductive Topic where
  | slot (s : Slot)
  | flag (f : Flag)
  deriving DecidableEq

def Setting.topic : Setting → Topic
  | entry e => .slot e.slot
  | flag f => .flag f

/-- The name of an option; a path is given without one. -/
def Slot.option? : Slot → Option String
  | rom => none
  | ips => some "ips"
  | renderer => some "renderer"
  | maxCycles => some "max-cycles"
  | seed => some "seed"
  | logLevel => some "log-level"

def Flag.name : Flag → String
  | beep => "beep"
  | shiftUsesVy => "shift-uses-vy"
  | loadStoreBumpsIndex => "load-store-bumps-i"

/-- The name of a level in capital letters, or OFF. -/
def levelName (level : Option Level) : String := (level.map Level.name).getD "OFF"

/-- Is the text a numeral for `n`, perhaps with zeros in front? -/
def IsNumeral (n : Nat) (text : String) : Prop :=
  ∃ zeros, text.toList = List.replicate zeros '0' ++ Nat.toDigits 10 n

/-- Can the value of an option be written so? A number has 64 bits. A level may be written in
    capital or small letters. -/
def Entry.Spells : Entry → String → Prop
  | rom _, _ => False
  | ips n, text | maxCycles n, text | seed n, text => n < 2 ^ 64 ∧ IsNumeral n text
  | renderer r, text => text = r.name
  | logLevel level, text => text.toList.map Char.toUpper = (levelName level).toList

/-- How a setting is written: a path as it is, if it is not empty and does not begin with a dash; a
    flag by its name; an option by its name and its value, in two arguments or in one. -/
inductive Setting.Written : Setting → List String → Prop
  | path {p : String} (hne : p ≠ "") (hdash : p.toList.head? ≠ some '-') :
    Written (.entry (.rom p)) [p]
  | flag (f : Flag) : Written (.flag f) ["--" ++ f.name]
  | apart {e : Entry} {name value : String} (hname : e.slot.option? = some name)
    (hvalue : e.Spells value) : Written (.entry e) ["--" ++ name, value]
  | attached {e : Entry} {name value : String} (hname : e.slot.option? = some name)
    (hvalue : e.Spells value) : Written (.entry e) ["--" ++ name ++ "=" ++ value]

/-- How several settings are written: one after the other. -/
def WrittenAs (said : List Setting) (args : List String) : Prop :=
  ∃ pieces, List.Forall₂ Setting.Written said pieces ∧ args = pieces.flatten

/-! ## Taking in settings -/

/-- The complaint about a second setting on a topic. -/
def UsageError.twice : Topic → UsageError
  | .slot slot => .slotTwice slot
  | .flag f => .flagTwice f

namespace Given

/-- What has been given, and the value of one more slot. -/
def put (g : Given) : Entry → Given
  | .rom path => { g with rom := some path }
  | .ips n => { g with ips := some n }
  | .renderer r => { g with renderer := some r }
  | .maxCycles n => { g with maxCycles := some n }
  | .seed n => { g with seed := some n }
  | .logLevel level => { g with logLevel := some level }

/-- Takes in a setting whose value has been read. -/
def hear (g : Given) : Setting → Except UsageError Given
  | .entry e => if g.has e.slot then .error (.slotTwice e.slot) else .ok (g.put e)
  | .flag f => g.takeFlag f

/-- Has there been a setting on the topic? -/
def heard (g : Given) : Topic → Bool
  | .slot slot => g.has slot
  | .flag f => f ∈ g.flags

/-- Is the setting among those that have been taken in? -/
def Holds (g : Given) : Setting → Prop
  | .entry (.rom path) => g.rom = some path
  | .entry (.ips n) => g.ips = some n
  | .entry (.renderer r) => g.renderer = some r
  | .entry (.maxCycles n) => g.maxCycles = some n
  | .entry (.seed n) => g.seed = some n
  | .entry (.logLevel level) => g.logLevel = some level
  | .flag f => f ∈ g.flags

variable {g g' : Given} {e : Entry} {s : Setting} {said : List Setting} {t : Topic}

theorem heard_put (t : Topic) :
    (g.put e).heard t = (g.heard t || decide (t = .slot e.slot)) := by
  rcases t with slot | f
  · cases e <;> cases slot <;> simp [heard, has, put, Entry.slot]
  · cases e <;> exact (Bool.or_false _).symm

/-- What is put in a slot that was empty pushes nothing out. -/
theorem holds_put (h : g.has e.slot = false) (s : Setting) :
    (g.put e).Holds s ↔ g.Holds s ∨ s = .entry e := by
  rcases s with e' | f
  · cases e <;> cases e' <;> simp_all [has, put, Entry.slot, Holds]
    all_goals exact eq_comm
  · cases e <;> simp [put, Holds]

theorem hear_of_heard (h : g.heard s.topic = true) : g.hear s = .error (.twice s.topic) := by
  cases s with
  | entry e => exact if_pos h
  | flag f => exact if_pos (by simpa [heard, Setting.topic] using h)

/-- A setting on a new topic is taken in, and nothing else changes. -/
theorem hear_of_not_heard (h : g.heard s.topic = false) :
    ∃ g', g.hear s = .ok g' ∧ (∀ t, g'.heard t = (g.heard t || decide (t = s.topic))) ∧
      ∀ s', g'.Holds s' ↔ g.Holds s' ∨ s' = s := by
  cases s with
  | entry e =>
    have hnot : ¬ g.has e.slot = true := by simpa [heard, Setting.topic] using h
    exact ⟨g.put e, if_neg hnot, heard_put, holds_put h⟩
  | flag f =>
    have hnot : f ∉ g.flags := by simpa [heard, Setting.topic] using h
    refine ⟨{ g with flags := f :: g.flags }, if_neg hnot, ?_, ?_⟩
    · rintro (slot | f')
      · cases slot <;> simp [heard, has, Setting.topic]
      · simp [heard, Setting.topic, Bool.or_comm]
    · rintro (e | f')
      · cases e <;> simp [Holds]
      · simp [Holds, or_comm]

theorem heard_of_hear (h : g.hear s = .ok g') (t : Topic) :
    g'.heard t = (g.heard t || decide (t = s.topic)) := by
  rcases hs : g.heard s.topic
  · obtain ⟨g₁, hok, hheard, -⟩ := hear_of_not_heard hs
    cases h.symm.trans hok
    exact hheard t
  · rw [hear_of_heard hs] at h
    cases h

/-- How often there has been a setting on a topic, once at most, or is one still to come. -/
def load (g : Given) (said : List Setting) (t : Topic) : Nat :=
  (said.map Setting.topic).count t + (g.heard t).toNat

/-- In the beginning nothing has been given. -/
theorem not_holds_empty (s : Setting) : ¬ ({} : Given).Holds s := by
  rcases s with e | f
  · cases e <;> simp [Holds]
  · simp [Holds]

theorem load_empty (said : List Setting) (t : Topic) :
    ({} : Given).load said t = (said.map Setting.topic).count t := by
  rcases t with slot | f
  · cases slot <;> rfl
  · rfl

theorem load_of_heard (hs : g.heard s.topic = false)
    (hg : ∀ t, g'.heard t = (g.heard t || decide (t = s.topic))) (t : Topic) :
    g'.load said t = g.load (s :: said) t := by
  rw [load, load, hg, List.map_cons, List.count_cons]
  rcases eq_or_ne t s.topic with rfl | hne
  · simp [hs]
  · simp [hne, hne.symm]

/-- Settings on different topics are all taken in, in whatever order they come. -/
theorem foldlM_hear (h : ∀ t, g.load said t ≤ 1) :
    ∃ g', said.foldlM hear g = .ok g' ∧ ∀ s, g'.Holds s ↔ g.Holds s ∨ s ∈ said := by
  induction said generalizing g with
  | nil => exact ⟨g, rfl, by simp⟩
  | cons s said ih =>
    have hs : g.heard s.topic = false := by
      have := h s.topic
      rcases hheard : g.heard s.topic
      · rfl
      · simp [load, hheard] at this
    obtain ⟨g₁, hok, hheard, hholds⟩ := hear_of_not_heard hs
    obtain ⟨g', hrun, hall⟩ := ih (g := g₁) fun t => load_of_heard hs hheard t ▸ h t
    refine ⟨g', by rw [List.foldlM_cons, hok]; exact hrun, fun s' => ?_⟩
    rw [hall, hholds, List.mem_cons, or_assoc]

/-- If settings on one topic come more than once, and on others not, then this is complained of. -/
theorem foldlM_hear_of_twice (ht : 2 ≤ g.load said t) (h : ∀ t', t' ≠ t → g.load said t' ≤ 1) :
    said.foldlM hear g = .error (.twice t) := by
  induction said generalizing g with
  | nil =>
    have := Bool.toNat_le (g.heard t)
    simp only [load, List.map_nil, List.count_nil] at ht
    omega
  | cons s said ih =>
    rcases hs : g.heard s.topic
    · obtain ⟨g₁, hok, hheard, -⟩ := hear_of_not_heard hs
      rw [List.foldlM_cons, hok]
      refine ih (g := g₁) ?_ fun t' hne => ?_
      · rwa [load_of_heard hs hheard]
      · rw [load_of_heard hs hheard]
        exact h t' hne
    · have hst : s.topic = t := by
        by_contra hne
        have := h s.topic hne
        simp [load, hs] at this
      rw [List.foldlM_cons, hear_of_heard hs, hst]
      rfl

end Given

/-! ## Values -/

namespace IsNumeral

variable {n : Nat} {text : String}

theorem all_isDigit (h : IsNumeral n text) : ∀ c ∈ text.toList, c.isDigit = true := by
  obtain ⟨zeros, h⟩ := h
  intro c hc
  rw [h, List.mem_append, List.mem_replicate] at hc
  rcases hc with ⟨-, rfl⟩ | hc
  · rfl
  · exact Nat.isDigit_of_mem_toDigits (by decide) (by decide) hc

theorem ofDigitChars_eq (h : IsNumeral n text) : Nat.ofDigitChars 10 text.toList 0 = n := by
  obtain ⟨zeros, h⟩ := h
  rw [h, Nat.ofDigitChars_append, Nat.ofDigitChars_replicate_zero, Nat.mul_zero,
    Nat.ofDigitChars_ten_toDigits]

theorem toList_ne_nil (h : IsNumeral n text) : text.toList ≠ [] := by
  obtain ⟨zeros, h⟩ := h
  rw [h]
  exact List.append_ne_nil_of_right_ne_nil _ Nat.toDigits_ne_nil

/-- A numeral does not begin with a sign. -/
theorem head?_ne (h : IsNumeral n text) {c : Char} (hc : c.isDigit = false) :
    text.toList.head? ≠ some c := by
  intro hhead
  rw [h.all_isDigit c (List.mem_of_mem_head? hhead)] at hc
  exact absurd hc (by decide)

theorem readDecimal?_eq (h : IsNumeral n text) {bound : Nat} (hn : n < bound) :
    Numeral.readDecimal? bound text = some n := by
  unfold Numeral.readDecimal?
  extract_lets digits value
  have hdigits : digits = text.toList := by
    unfold digits
    split
    next hplus => exact absurd (by rw [hplus]; rfl) (h.head?_ne (c := '+') rfl)
    next => rfl
  have hvalue : value = n := by
    unfold value
    rw [hdigits, h.ofDigitChars_eq]
  have hempty : text.toList.isEmpty = false := List.isEmpty_eq_false_iff.mpr h.toList_ne_nil
  have hall : text.toList.all Char.isDigit = true := List.all_eq_true.mpr h.all_isDigit
  rw [hdigits, hempty, hall, hvalue]
  exact if_pos hn

end IsNumeral

theorem readNumber_of_isNumeral {slot : Slot} {n : Nat} {text : String} (hn : n < 2 ^ 64)
    (h : IsNumeral n text) : readNumber slot text = .ok n := by
  have hread : Numeral.readDecimal? numberBound text = some n := h.readDecimal?_eq hn
  rw [readNumber, hread]

theorem readRenderer_name (r : Renderer) : readRenderer r.name = .ok r := by
  cases r <;> simp [readRenderer, Renderer.name]

theorem readLevel_of_toUpper {level : Option Level} {text : String}
    (h : text.toList.map Char.toUpper = (levelName level).toList) :
    readLevel text = .ok level := by
  rw [readLevel, h, String.ofList_toList]
  rcases level with _ | level
  · rfl
  · cases level <;> simp [levelName, Level.name]

/-- The value of an option does not look like an option. -/
theorem Entry.Spells.head?_ne {e : Entry} {value : String} (h : e.Spells value) :
    value.toList.head? ≠ some '-' := by
  cases e with
  | rom => exact h.elim
  | ips | maxCycles | seed => exact h.2.head?_ne rfl
  | renderer r =>
    rw [show value = r.name from h]
    cases r <;> simp [Renderer.name]
  | logLevel level =>
    intro hhead
    have hupper := congrArg List.head? (show value.toList.map Char.toUpper = _ from h)
    rw [List.head?_map, hhead] at hupper
    rcases level with _ | level
    · simp [levelName] at hupper
    · cases level <;> simp [levelName, Level.name] at hupper

namespace Given

theorem fill_of_spells {e : Entry} {value : String} (h : e.Spells value) (g : Given) :
    g.fill e.slot value = .ok (g.put e) := by
  cases e with
  | rom => exact h.elim
  | ips | maxCycles | seed => exact congrArg (Except.map _) (readNumber_of_isNumeral h.1 h.2)
  | renderer r =>
    rw [show value = r.name from h]
    exact congrArg (Except.map _) (readRenderer_name r)
  | logLevel => exact congrArg (Except.map _) (readLevel_of_toUpper h)

/-- A path is known only from its own slot. -/
theorem has_rom_of_fill {g g' : Given} {slot : Slot} {value : String}
    (h : g.fill slot value = .ok g') : g'.has .rom = (g.has .rom || slot == .rom) := by
  have hmap : ∀ {α : Type} {x : Except UsageError α} {f : α → Given},
      x.map f = .ok g' → ∃ v, g' = f v := by
    rintro α (e | v) f hx
    · cases hx
    · exact ⟨v, (Except.ok.inj hx).symm⟩
  cases slot <;>
    (obtain ⟨v, rfl⟩ := hmap h
     simp [has])

/-- An option with a value that reads well is taken in as a setting. -/
theorem takeSlot_of_spells {e : Entry} {value : String} (h : e.Spells value) (g : Given) :
    g.takeSlot e.slot (some value) = g.hear (.entry e) := by
  rw [takeSlot, fill_of_spells h]
  rfl

theorem takeSlot_rom {path : String} (h : path ≠ "") (g : Given) :
    g.takeSlot .rom (some path) = g.hear (.entry (.rom path)) := by
  have hfill : g.fill .rom path = .ok (g.put (.rom path)) :=
    congrArg (Except.map _) (if_neg (by simpa using h))
  rw [takeSlot, hfill]
  rfl

end Given

/-! ## Arguments -/

/-- A long name ends where an equals sign or the argument does. -/
theorem longNames_lookup {name : String} {n : LongName} (h : longNames.lookup name = some n) :
    name.toList ≠ [] ∧ ∀ c ∈ name.toList, (c != '=') = true := by
  obtain ⟨before, after, htable, -⟩ := List.lookup_eq_some_iff.mp h
  have hall : ∀ p ∈ longNames, p.1.toList ≠ [] ∧ ∀ c ∈ p.1.toList, (c != '=') = true := by
    simp [longNames]
  exact hall (name, n) (by simp [htable])

theorem Slot.lookup_option? {slot : Slot} {name : String} (h : slot.option? = some name) :
    longNames.lookup name = some (.slot slot) := by
  cases slot <;> cases h <;> simp [longNames, List.lookup]

theorem Flag.lookup_name (f : Flag) : longNames.lookup f.name = some (.flag f) := by
  cases f <;> simp [Flag.name, longNames, List.lookup]

namespace Reading

/-- What will have been given when what is open has been taken in. -/
def due (r : Reading) : Except UsageError Given :=
  match r.open with
  | none => .ok r.given
  | some (slot, value) => r.given.takeSlot slot value

/-- Has a path been read? -/
def named (r : Reading) : Bool := r.given.rom.isSome || r.open.any (·.1 == .rom)

/-- Is the reading at the start of a setting, with no option waiting for its value? -/
structure Between (r : Reading) : Prop where
  pathsOnly : r.pathsOnly = false
  awaits : ∀ slot, r.open ≠ some (slot, none)

variable {r : Reading}

/-- What is known of the path does not depend on whether it has been taken in. -/
theorem heard_rom_of_due {g : Given} (h : r.due = .ok g) :
    g.heard (.slot .rom) = r.named := by
  rcases r with ⟨g₀, _ | ⟨slot, _ | value⟩, paths⟩
  · cases h
    exact (Bool.or_false _).symm
  · cases h
  · change (if g₀.has slot then _ else g₀.fill slot value) = _ at h
    split_ifs at h
    exact Given.has_rom_of_fill h

theorem settle_eq (r : Reading) :
    r.settle = r.due.map fun g => { r with given := g, «open» := none } := by
  rcases r with ⟨g, _ | ⟨slot, value⟩, paths⟩ <;> rfl

theorem arg_dashes (hr : r.pathsOnly = false) {text : String} {body : List Char}
    (htext : text.toList = '-' :: '-' :: body) (hbody : body ≠ []) :
    r.arg text =
      match body.dropWhile (· != '=') with
      | _ :: value =>
        r.long (String.ofList (body.takeWhile (· != '='))) (some (String.ofList value))
      | [] => r.long (String.ofList (body.takeWhile (· != '='))) none := by
  obtain ⟨c, cs, rfl⟩ := List.exists_cons_of_ne_nil hbody
  rw [arg, hr, htext]
  rfl

theorem arg_long (hr : r.pathsOnly = false) {name : String} {n : LongName}
    (hname : longNames.lookup name = some n) : r.arg ("--" ++ name) = r.long name none := by
  obtain ⟨hne, hword⟩ := longNames_lookup hname
  have htext : ("--" ++ name).toList = '-' :: '-' :: name.toList := by simp
  rw [arg_dashes hr htext hne, List.dropWhile_eq_nil_iff.mpr hword,
    List.takeWhile_eq_self_iff.mpr hword, String.ofList_toList]

theorem arg_attached (hr : r.pathsOnly = false) {name : String} {n : LongName}
    (hname : longNames.lookup name = some n) (value : String) :
    r.arg ("--" ++ name ++ "=" ++ value) = r.long name (some value) := by
  obtain ⟨-, hword⟩ := longNames_lookup hname
  have htext : ("--" ++ name ++ "=" ++ value).toList =
      '-' :: '-' :: (name.toList ++ '=' :: value.toList) := by simp
  have hdrop : (name.toList ++ '=' :: value.toList).dropWhile (· != '=') =
      '=' :: value.toList := by
    rw [List.dropWhile_append_of_pos hword]
    rfl
  have htake : (name.toList ++ '=' :: value.toList).takeWhile (· != '=') = name.toList := by
    rw [List.takeWhile_append_of_pos hword]
    simp
  rw [arg_dashes hr htext (by simp), hdrop, htake]
  simp only [String.ofList_toList]

/-- An argument without a dash in front is a value or a path. -/
theorem arg_of_head?_ne (hr : r.pathsOnly = false) {text : String}
    (hdash : text.toList.head? ≠ some '-') :
    r.arg text =
      match r.open with
      | some (slot, none) => .ok { r with «open» := some (slot, some text) }
      | _ => r.path text := by
  rw [arg, hr, if_neg Bool.false_ne_true]
  split
  next htext => simp [htext] at hdash
  next htext => simp [htext] at hdash
  next htext => simp [htext] at hdash
  next => rfl

theorem arg_flag (hr : r.pathsOnly = false) (f : Flag) :
    r.arg ("--" ++ f.name) =
      r.due.bind fun g =>
        (g.hear (.flag f)).map fun g => { r with given := g, «open» := none } := by
  rw [arg_long hr f.lookup_name]
  unfold long
  rw [f.lookup_name, settle_eq]
  rcases r.due with e | g
  · rfl
  · change (g.takeFlag f >>= _) = (g.takeFlag f).map _
    rcases g.takeFlag f with e | g' <;> rfl

theorem arg_option (hr : r.pathsOnly = false) {slot : Slot} {name : String}
    (hname : slot.option? = some name) :
    r.arg ("--" ++ name) =
      r.due.map fun g => { r with given := g, «open» := some (slot, none) } := by
  rw [arg_long hr (slot.lookup_option? hname)]
  unfold long
  rw [slot.lookup_option? hname, settle_eq]
  rcases r.due with e | g <;> rfl

theorem arg_option_attached (hr : r.pathsOnly = false) {e : Entry} {name value : String}
    (hname : e.slot.option? = some name) (hvalue : e.Spells value) :
    r.arg ("--" ++ name ++ "=" ++ value) =
      r.due.bind fun g =>
        (g.hear (.entry e)).map fun g => { r with given := g, «open» := none } := by
  rw [arg_attached hr (e.slot.lookup_option? hname)]
  unfold long
  rw [e.slot.lookup_option? hname, settle_eq]
  rcases r.due with e | g
  · rfl
  · change (g.takeSlot e.slot (some value) >>= _) = _
    rw [Given.takeSlot_of_spells hvalue]
    change _ = (g.hear (.entry e)).map _
    rcases g.hear (.entry e) with e | g' <;> rfl

theorem arg_path (hr : r.Between) (hnamed : r.named = false) {path : String}
    (hdash : path.toList.head? ≠ some '-') :
    r.arg path = r.due.map fun g => { r with given := g, «open» := some (.rom, some path) } := by
  have hpath : r.path path =
      r.due.map fun g => { r with given := g, «open» := some (.rom, some path) } := by
    change (if r.named then _ else _) = _
    rw [hnamed, settle_eq]
    rcases r.due with e | g <;> rfl
  rw [arg_of_head?_ne hr.pathsOnly hdash, hpath]
  split
  next slot hopen => exact absurd hopen (hr.awaits slot)
  next => rfl

/-- Does reading a setting come to taking it in after what is open, and does it end at the start of
    another setting? -/
structure Hears (r : Reading) (s : Setting) (result : Except UsageError Reading) : Prop where
  due : result.bind due = r.due.bind (·.hear s)
  between : ∀ r', result = .ok r' → r'.Between
  named : ∀ r', result = .ok r' → r'.named = (r.named || decide (.slot .rom = s.topic))

theorem hears_error {s : Setting} {e : UsageError} (h : r.due.bind (·.hear s) = .error e) :
    r.Hears s (.error e) := by
  refine ⟨h.symm, ?_, ?_⟩ <;> rintro r' ⟨⟩

/-- A setting that is taken in at once. -/
theorem hears_settled (hr : r.pathsOnly = false) (s : Setting) :
    r.Hears s (r.due.bind fun g =>
      (g.hear s).map fun g => { r with given := g, «open» := none }) := by
  rcases hdue : r.due with e | g
  · exact hears_error (by rw [hdue]; rfl)
  change r.Hears s ((g.hear s).map _)
  rcases hhear : g.hear s with e | g'
  · exact hears_error (by rw [hdue]; exact hhear)
  · refine ⟨by rw [hdue]; exact hhear.symm, ?_, ?_⟩
    · rintro r' ⟨⟩
      exact ⟨hr, nofun⟩
    · rintro r' ⟨⟩
      have hrom := Given.heard_of_hear hhear (.slot .rom)
      rw [heard_rom_of_due hdue] at hrom
      rw [← hrom]
      exact Bool.or_false _

/-- A setting whose value stays open. -/
theorem hears_pending (hr : r.pathsOnly = false) {s : Setting} {slot : Slot} {value : String}
    (hs : s.topic = .slot slot) (hvalue : ∀ g : Given, g.takeSlot slot (some value) = g.hear s) :
    r.Hears s (r.due.map fun g => { r with given := g, «open» := some (slot, some value) }) := by
  rcases hdue : r.due with e | g
  · exact hears_error (by rw [hdue]; rfl)
  · refine ⟨by rw [hdue]; exact hvalue g, ?_, ?_⟩
    · rintro r' ⟨⟩
      exact ⟨hr, nofun⟩
    · rintro r' ⟨⟩
      rw [← heard_rom_of_due hdue, hs]
      cases slot <;> simp [named, Given.heard, Given.has]

theorem arg_option_apart (hr : r.pathsOnly = false) {slot : Slot} {name value : String}
    (hname : slot.option? = some name) (hdash : value.toList.head? ≠ some '-') :
    ["--" ++ name, value].foldlM arg r =
      r.due.map fun g => { r with given := g, «open» := some (slot, some value) } := by
  simp only [List.foldlM_cons, List.foldlM_nil, bind_pure, arg_option hr hname]
  rcases r.due with e | g
  · rfl
  · exact arg_of_head?_ne (r := { r with given := g, «open» := some (slot, none) }) hr hdash

theorem hears_of_written {s : Setting} {piece : List String} (h : s.Written piece)
    (hr : r.Between) (hrom : s.topic = .slot .rom → r.named = false) :
    r.Hears s (piece.foldlM arg r) := by
  have hone : ∀ a, [a].foldlM arg r = r.arg a := fun a => bind_pure _
  cases h with
  | path hne hdash =>
    rw [hone, arg_path hr (hrom rfl) hdash]
    exact hears_pending hr.pathsOnly rfl (Given.takeSlot_rom hne)
  | flag f =>
    rw [hone, arg_flag hr.pathsOnly]
    exact hears_settled hr.pathsOnly _
  | apart hname hvalue =>
    rw [arg_option_apart hr.pathsOnly hname hvalue.head?_ne]
    exact hears_pending hr.pathsOnly rfl (Given.takeSlot_of_spells hvalue)
  | attached hname hvalue =>
    rw [hone, arg_option_attached hr.pathsOnly hname hvalue]
    exact hears_settled hr.pathsOnly _

/-- A line with one path at most is taken in setting by setting. -/
theorem due_arguments {said : List Setting} {pieces : List (List String)}
    (h : List.Forall₂ Setting.Written said pieces) (hr : r.Between)
    (hrom : (said.map Setting.topic).count (.slot .rom) + r.named.toNat ≤ 1) :
    (pieces.flatten.foldlM arg r).bind due = r.due.bind fun g => said.foldlM Given.hear g := by
  -- a value may stay open until the next setting is read, so the reading is generalized, not what
  -- has been given
  induction h generalizing r with
  | nil =>
    change r.due = r.due.bind pure
    rcases r.due with e | g <;> rfl
  | @cons s piece said pieces hs _ ih =>
    rw [List.map_cons, List.count_cons] at hrom
    have hpiece : r.Hears s (piece.foldlM arg r) := by
      refine hears_of_written hs hr fun htopic => ?_
      rcases hnamed : r.named
      · rfl
      · simp [htopic, hnamed] at hrom
    have hsplit : (r.due.bind fun g => (s :: said).foldlM Given.hear g) =
        ((piece.foldlM arg r).bind due).bind fun g => said.foldlM Given.hear g := by
      rw [hpiece.due]
      rcases r.due with e | g <;> rfl
    rw [hsplit, List.flatten_cons, List.foldlM_append]
    rcases hread : piece.foldlM arg r with e | r'
    · rfl
    · refine ih (hpiece.between r' hread) ?_
      rw [hpiece.named r' hread]
      rcases eq_or_ne s.topic (.slot .rom) with htopic | htopic
      · rw [htopic, decide_eq_true rfl, Bool.or_true, Bool.toNat_true]
        rw [htopic, beq_self_eq_true, if_pos rfl] at hrom
        omega
      · simpa [htopic, htopic.symm] using hrom

end Reading

/-- Reading a command line comes to taking in what it says. -/
theorem readArguments_eq {said : List Setting} {args : List String} (h : WrittenAs said args)
    (hrom : (said.map Setting.topic).count (.slot .rom) ≤ 1) :
    readArguments args = (said.foldlM Given.hear {}).bind Given.options := by
  obtain ⟨pieces, hpieces, rfl⟩ := h
  have hdue := Reading.due_arguments (r := {}) hpieces ⟨rfl, nofun⟩ hrom
  change (pieces.flatten.foldlM Reading.arg {}).bind Reading.due =
    said.foldlM Given.hear {} at hdue
  rw [← hdue]
  change (pieces.flatten.foldlM Reading.arg {}).bind _ = _
  rcases pieces.flatten.foldlM Reading.arg {} with e | r
  · rfl
  · change (r.settle).bind _ = r.due.bind _
    rw [Reading.settle_eq]
    rcases r.due with e | g <;> rfl

end Chip8
