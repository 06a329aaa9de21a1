import Chip8.Proofs.Arguments
import Mathlib.Data.List.Nodup

set_option autoImplicit false

/-! # What a command line is written for

A request is what somebody wants to say with a command line: the program to run, and whatever is to
be other than usual. It comes to a list of settings on different topics (`Request.settings`). In
whatever order and form these are written, they are read back as the options that the request is
for, and a line that says something twice is refused (`Request.read_back_in_any_order`). -/

namespace Chip8

/-- All the topics there are. -/
def Topic.all : List Topic :=
  [.slot .rom, .slot .ips, .slot .renderer, .slot .maxCycles, .slot .seed, .slot .logLevel,
    .flag .beep, .flag .shiftUsesVy, .flag .loadStoreBumpsIndex]

theorem Topic.mem_all (t : Topic) : t ∈ all := by
  rcases t with slot | f
  · cases slot <;> decide
  · cases f <;> decide

/-- What somebody asks for with a command line: a program, and what is to be other than usual. -/
structure Request where
  rom : String
  ips : Option Nat := none
  renderer : Option Renderer := none
  maxCycles : Option Nat := none
  seed : Option Nat := none
  logLevel : Option (Option Level) := none
  beep : Bool := false
  shiftUsesVy : Bool := false
  loadStoreBumpsIndex : Bool := false

namespace Request

/-- Is the flag to be set? -/
def asks (q : Request) : Flag → Bool
  | .beep => q.beep
  | .shiftUsesVy => q.shiftUsesVy
  | .loadStoreBumpsIndex => q.loadStoreBumpsIndex

/-- What there is to be said on a topic, if anything. -/
def about (q : Request) : Topic → Option Setting
  | .slot .rom => some (.entry (.rom q.rom))
  | .slot .ips => q.ips.map fun n => .entry (.ips n)
  | .slot .renderer => q.renderer.map fun r => .entry (.renderer r)
  | .slot .maxCycles => q.maxCycles.map fun n => .entry (.maxCycles n)
  | .slot .seed => q.seed.map fun n => .entry (.seed n)
  | .slot .logLevel => q.logLevel.map fun level => .entry (.logLevel level)
  | .flag f => if q.asks f then some (.flag f) else none

/-- Everything there is to be said, topic by topic. -/
def settings (q : Request) : List Setting := Topic.all.filterMap q.about

/-- The options that are asked for, with the usual ones where nothing is said. -/
def options (q : Request) : Options where
  rom := q.rom
  ips := q.ips.getD 700
  renderer := q.renderer.getD .panel
  beep := q.beep
  maxCycles := q.maxCycles
  shiftUsesVy := q.shiftUsesVy
  loadStoreBumpsIndex := q.loadStoreBumpsIndex
  seed := q.seed
  logLevel := q.logLevel.getD (some .warn)

variable {q : Request} {s : Setting} {t : Topic}

theorem topic_about (h : q.about t = some s) : s.topic = t := by
  rcases t with slot | f
  · cases slot <;>
      simp only [about, Option.map_eq_some_iff, Option.some.injEq] at h
    case rom => exact h ▸ rfl
    all_goals
      obtain ⟨v, -, rfl⟩ := h
      rfl
  · obtain ⟨-, rfl⟩ : q.asks f = true ∧ Setting.flag f = s := by simpa [about] using h
    rfl

theorem mem_settings : s ∈ q.settings ↔ q.about s.topic = some s := by
  rw [settings, List.mem_filterMap]
  constructor
  · rintro ⟨t, -, ht⟩
    rwa [topic_about ht]
  · exact fun h => ⟨s.topic, Topic.mem_all _, h⟩

theorem map_topic_settings (q : Request) :
    q.settings.map Setting.topic = Topic.all.filter fun t => (q.about t).isSome := by
  rw [settings, List.map_filterMap, ← List.filterMap_eq_filter]
  congr 1
  funext t
  rcases hsaid : q.about t with _ | s
  · simp [Option.guard, hsaid]
  · simp [Option.guard, hsaid, topic_about hsaid]

/-- There is one thing at most to be said on a topic. -/
theorem count_topic_settings (q : Request) (t : Topic) :
    (q.settings.map Setting.topic).count t ≤ 1 := by
  have hnodup : Topic.all.Nodup := by decide
  rw [map_topic_settings]
  exact List.nodup_iff_count_le_one.mp (hnodup.filter _) t

section Again

variable {said more : List Setting}

theorem count_topic_of_perm (h : said.Perm (more ++ q.settings)) (t : Topic) :
    (said.map Setting.topic).count t =
      (more.map Setting.topic).count t + (q.settings.map Setting.topic).count t := by
  rw [(h.map _).count_eq, List.map_append, List.count_append]

/-- What is said again on one topic does not change how often another one comes. -/
theorem count_topic_le_of_ne (h : said.Perm (more ++ q.settings))
    (hmore : ∀ s ∈ more, s.topic = t) {t' : Topic} (hne : t' ≠ t) :
    (said.map Setting.topic).count t' ≤ 1 := by
  have hnone : (more.map Setting.topic).count t' = 0 := by
    rw [List.count_eq_zero, List.mem_map]
    rintro ⟨s, hs, rfl⟩
    exact hne (hmore s hs)
  rw [count_topic_of_perm h, hnone, Nat.zero_add]
  exact q.count_topic_settings t'

theorem two_le_count_topic (h : said.Perm (more ++ q.settings)) (hs : s ∈ q.settings)
    (hne : more ≠ []) (hmore : ∀ s' ∈ more, s'.topic = s.topic) :
    2 ≤ (said.map Setting.topic).count s.topic := by
  obtain ⟨s', hs'⟩ := List.exists_mem_of_ne_nil more hne
  have hfirst : 0 < (q.settings.map Setting.topic).count s.topic :=
    List.count_pos_iff.mpr (List.mem_map_of_mem hs)
  have hagain : 0 < (more.map Setting.topic).count s.topic :=
    List.count_pos_iff.mpr (List.mem_map.mpr ⟨s', hs', hmore s' hs'⟩)
  rw [count_topic_of_perm h]
  omega

end Again

/-- A value that is known just when it is asked for is the one that is asked for. -/
theorem eq_of_known_iff {α : Type} {make : α → Entry} {known asked : Option α}
    (hmake : make.Injective)
    (h : ∀ v, known = some v ↔
      (asked.map fun v => Setting.entry (make v)) = some (.entry (make v))) : known = asked := by
  refine Option.ext fun v => (h v).trans ?_
  simp [hmake.eq_iff]

/-- If the settings of a request have been taken in and nothing else, then the options are those
    that are asked for. -/
theorem options_of_holds {g : Given} (h : ∀ s, g.Holds s ↔ s ∈ q.settings) :
    g.options = .ok q.options := by
  have hholds : ∀ s, g.Holds s ↔ q.about s.topic = some s := by
    simpa only [mem_settings] using h
  have hrom : g.rom = some q.rom := (hholds (.entry (.rom q.rom))).mpr rfl
  have hips : g.ips = q.ips :=
    eq_of_known_iff (fun _ _ => Entry.ips.inj) fun n => hholds (.entry (.ips n))
  have hrenderer : g.renderer = q.renderer :=
    eq_of_known_iff (fun _ _ => Entry.renderer.inj) fun r => hholds (.entry (.renderer r))
  have hmax : g.maxCycles = q.maxCycles :=
    eq_of_known_iff (fun _ _ => Entry.maxCycles.inj) fun n => hholds (.entry (.maxCycles n))
  have hseed : g.seed = q.seed :=
    eq_of_known_iff (fun _ _ => Entry.seed.inj) fun n => hholds (.entry (.seed n))
  have hlevel : g.logLevel = q.logLevel :=
    eq_of_known_iff (fun _ _ => Entry.logLevel.inj) fun l => hholds (.entry (.logLevel l))
  have hflag : ∀ f, decide (f ∈ g.flags) = q.asks f := by
    intro f
    have hiff : f ∈ g.flags ↔ (if q.asks f then some (Setting.flag f) else none) = some (.flag f) :=
      hholds (.flag f)
    rcases hasks : q.asks f <;> simp [hiff, hasks]
  rw [Given.options, hrom, hips, hrenderer, hmax, hseed, hlevel, hflag, hflag, hflag]
  rfl

/-- A command line gives back what was written into it, whatever the order and form of its settings.
    What it says goes into the setting of that name, and what it does not say is as usual. A line
    that says an option or a flag again, with whatever value, is refused for it. -/
theorem read_back_in_any_order (q : Request) :
    (∀ said args, said.Perm q.settings → WrittenAs said args →
      readArguments args = .ok q.options) ∧
    q.options.settings =
      { rom := q.rom
        rates := { cycles := q.ips.getD 700, frames := 60 }
        renderer := q.renderer.getD .panel
        beep := q.beep
        maxCycles := q.maxCycles
        dialect :=
          { shiftUsesVy := q.shiftUsesVy, loadStoreBumpsIndex := q.loadStoreBumpsIndex }
        seed := q.seed } ∧
    ∀ s ∈ q.settings, s.topic ≠ .slot .rom →
      ∀ more said args, more ≠ [] → (∀ s' ∈ more, s'.topic = s.topic) →
        said.Perm (more ++ q.settings) → WrittenAs said args →
          readArguments args = .error (.twice s.topic) := by
  refine ⟨?_, rfl, ?_⟩
  · intro said args hperm hargs
    have hcount : ∀ t, (said.map Setting.topic).count t ≤ 1 := by
      intro t
      rw [(hperm.map _).count_eq]
      exact q.count_topic_settings t
    obtain ⟨g, hread, hholds⟩ := Given.foldlM_hear (g := {}) fun t => by
      rw [Given.load_empty]
      exact hcount t
    rw [readArguments_eq hargs (hcount _), hread]
    refine options_of_holds fun s => ?_
    rw [hholds, hperm.mem_iff]
    exact or_iff_right (Given.not_holds_empty s)
  · intro s hs hrom more said args hmore htopic hperm hargs
    have hothers : ∀ t, t ≠ s.topic → (said.map Setting.topic).count t ≤ 1 :=
      fun _ => count_topic_le_of_ne hperm htopic
    have htwice : 2 ≤ (said.map Setting.topic).count s.topic :=
      two_le_count_topic hperm hs hmore htopic
    rw [readArguments_eq hargs (hothers _ (Ne.symm hrom)),
      Given.foldlM_hear_of_twice (by rwa [Given.load_empty]) (by simpa only [Given.load_empty])]
    rfl

/-- A line in which the path stands among the options, and one that says the seed again. -/
theorem seed_read_back_once :
    readArguments
        ["--seed", "7", "--beep", "game.ch8", "--ips=01000", "--log-level", "Debug"] =
      .ok
        { rom := "game.ch8", ips := 1000, beep := true, seed := some 7, logLevel := some .debug } ∧
    readArguments
        ["--seed=8", "--seed", "7", "--beep", "game.ch8", "--ips=01000", "--log-level", "Debug"] =
      .error (.slotTwice .seed) := by
  have hwritten : List.Forall₂ Setting.Written
      [.entry (.seed 7), .flag .beep, .entry (.rom "game.ch8"), .entry (.ips 1000),
        .entry (.logLevel (some .debug))]
      [["--seed", "7"], ["--beep"], ["game.ch8"], ["--ips=01000"], ["--log-level", "Debug"]] := by
    refine .cons ?_ (.cons ?_ (.cons ?_ (.cons ?_ (.cons ?_ .nil))))
    · exact @Setting.Written.apart (.seed 7) "seed" "7" rfl ⟨by decide, 0, by cbv⟩
    · exact .flag .beep
    · exact .path (by decide) (by simp)
    · exact @Setting.Written.attached (.ips 1000) "ips" "01000" rfl ⟨by decide, 1, by cbv⟩
    · exact @Setting.Written.apart (.logLevel (some .debug)) "log-level" "Debug" rfl
        (by simp [Entry.Spells, levelName, Level.name])
  have hagain : (Setting.entry (.seed 8)).Written ["--seed=8"] :=
    @Setting.Written.attached (.seed 8) "seed" "8" rfl ⟨by decide, 0, by cbv⟩
  obtain ⟨hread, -, htwice⟩ := read_back_in_any_order
    { rom := "game.ch8", ips := some 1000, seed := some 7, logLevel := some (some .debug),
      beep := true }
  exact ⟨hread _ _ (by decide) ⟨_, hwritten, rfl⟩,
    htwice (.entry (.seed 7)) (by decide) (by decide) [.entry (.seed 8)] _ _ (by simp)
      (by simp [Setting.topic, Entry.slot]) (List.Perm.cons _ (by decide))
      ⟨_, .cons hagain hwritten, rfl⟩⟩

end Request

end Chip8
