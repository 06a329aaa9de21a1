import Chip8.Clock.Scheduler
import Chip8.Console.Basic
import Chip8.Console.Polls
import Chip8.RunError

set_option autoImplicit false

/-! # The station

A console with a clock and devices around it, and a journal of what happens: what the devices were
asked for, and when the instruction cycles ran. The clock moves only when the station sleeps and
when a poll of the keyboard takes time. Each device is described by what it says when it is used, so
all that happens at a station is a function of what the keyboard holds, of the devices and of the
polls' delays. -/

namespace Chip8

/-! ## What happens at a station -/

/-- Something that happens at a station, with the time of the clock. -/
inductive Event where
  /-- The keyboard was polled. -/
  | peek (time : Nat)
  /-- The keyboard was polled, with nothing left in store for it. -/
  | lastPeek (time : Nat)
  /-- An instruction cycle began. -/
  | cycle (time : Nat)
  /-- The display was given a picture. -/
  | draw (time : Nat) (screen : Screen)
  /-- The sound device was asked for a tone. -/
  | tone (time : Nat) (tone : Tone)
  deriving DecidableEq

/-- What has happened, first things first. -/
structure Journal where
  /-- The uses of devices and the instruction cycles. -/
  events : Array Event := #[]
  sleeps : Array Nat := #[]
  /-- What was logged and asked for. -/
  log : Array Record := #[]

/-- What the devices say when they are used: nothing if they work, else what is wrong. -/
structure Devices where
  /-- The display. -/
  display : Option String := none
  /-- The sound device, asked for the beep. -/
  beep : Option String := none
  /-- The sound device, asked for silence. -/
  silence : Option String := none
  deriving DecidableEq, Inhabited

/-- The sound device among the devices. -/
def Devices.sound (d : Devices) : SoundDevice
  | .beep => d.beep
  | .silence => d.silence

/-- A console with a clock and devices. -/
structure Station where
  console : Console
  rates : Rates := {}
  devices : Devices := {}
  /-- The least grave level of records that are kept, if any are. -/
  threshold : Option Level := none
  /-- The time of the clock, in nanoseconds. -/
  clock : Nat := 0
  held : List UInt8 := []
  /-- How many pictures the display has taken. -/
  frames : Nat := 0
  journal : Journal := {}

namespace Station

def record (s : Station) (event : Event) : Station :=
  { s with journal := { s.journal with events := s.journal.events.push event } }

/-- Writes records into the journal, those that were asked for. -/
def note (s : Station) (records : List Record) : Station :=
  match records.filter (·.visibleAt s.threshold) with
  | [] => s
  | kept => { s with journal := { s.journal with log := s.journal.log.appendList kept } }

def turnPage (s : Station) : Station := { s with journal := {} }

/-! ## Single operations -/

/-- Polls the keyboard. A poll that fails changes nothing and takes no time. -/
def poll (s : Station) (p : Poll) : Except RunError Unit × Station :=
  let s := s.record (.peek s.clock)
  match p.failure with
  | some reason => (.error (.device reason), s)
  | none =>
    (.ok (), { s with clock := s.clock + p.busy, held := p.keys, console := s.console.poll p.keys })

/-- Runs one instruction cycle. -/
def cycle (s : Station) : Except RunError Unit × Station :=
  let s := s.record (.cycle s.clock)
  let c := s.console.cycle
  let s := { s with console := c.console }.note c.log
  match c.fault with
  | some fault => (.error (.fault fault), s)
  | none => (.ok (), s)

/-- Ends a frame: draws the picture, then counts down the timers and follows the sound timer. If the
    picture cannot be drawn, neither the timers nor the sound device are touched. -/
def interrupt (s : Station) : Except RunError Unit × Station :=
  let s := s.record (.draw s.clock s.console.machine.screen)
  match s.devices.display with
  | some reason => (.error (.device reason), s)
  | none =>
    let f := s.console.endFrame s.devices.sound
    let s := { s with console := f.console, frames := s.frames + 1 }
    let s := match f.asked with
      | some tone => s.record (.tone s.clock tone)
      | none => s
    (.ok (), s.note f.log)

/-- Sleeps, which moves the clock by exactly the time asked for. -/
def sleep (s : Station) (duration : Nat) : Station :=
  { s with
    clock := s.clock + duration,
    journal := { s.journal with sleeps := s.journal.sleeps.push duration } }

/-- Repeats an operation, at most `count` times and not beyond the first failure. -/
def times (op : Station → Except RunError Unit × Station) :
    Nat → Station → Except RunError Unit × Station
  | 0, s => (.ok (), s)
  | count + 1, s =>
    match op s with
    | (.ok (), s) => times op count s
    | (.error e, s) => (.error e, s)

/-! ## The main loop -/

def atLimit (s : Station) (limit : Option Nat) : Bool := limit.any (· ≤ s.console.cycles)

/-- Runs the cycles that are due. The limit on cycles is checked before each; the answer tells
    whether it was found reached. -/
def runCycles (limit : Option Nat) : Nat → Station → Except RunError Bool × Station
  | 0, s => (.ok false, s)
  | due + 1, s =>
    if s.atLimit limit then (.ok true, s.note [.cycleLimit])
    else
      match s.cycle with
      | (.ok (), s) => runCycles limit due s
      | (.error e, s) => (.error e, s)

/-- One pass of the main loop: a poll of the keyboard, a measure of the clock, the cycles that are
    due, the frames that are due, and a sleep until the next event. The answer is how many cycles
    there have been, if the loop ends here, and otherwise the scheduler for the next pass. -/
def pass (limit : Option Nat) (p : Poll) (scheduler : Scheduler) (s : Station) :
    Except RunError (Nat ⊕ Scheduler) × Station :=
  match s.poll p with
  | (.error e, s) => (.error e, s)
  | (.ok (), s) =>
    if p.quit then
      (.ok (.inl s.console.cycles), s.note [.quit s.console.cycles])
    else
      let polled := scheduler.poll s.clock
      match runCycles limit polled.1.cycles s with
      | (.error e, s) => (.error e, s)
      | (.ok true, s) => (.ok (.inl s.console.cycles), s)
      | (.ok false, s) =>
        match times interrupt polled.1.frames s with
        | (.error e, s) => (.error e, s)
        | (.ok (), s) => (.ok (.inr polled.2), s.sleep polled.2.untilNext)

/-- Polls the keyboard with nothing left in store for it: it holds what it held, and the user has
    asked to leave. -/
def lastPass (s : Station) : Nat × Station :=
  let s := s.record (.lastPeek s.clock)
  let s := { s with console := s.console.poll s.held }
  (s.console.cycles, s.note [.quit s.console.cycles])

/-- The passes of the main loop from a scheduler on, one for each poll: `done` polls have been, and
    `left` are left. -/
def passes (limit : Option Nat) (find : Nat → Poll) :
    (left done : Nat) → Scheduler → Station → Except RunError Nat × Station
  | 0, _, _, s => (.ok s.lastPass.1, s.lastPass.2)
  | left + 1, done, scheduler, s =>
    match pass limit (find done) scheduler s with
    | (.error e, s) => (.error e, s)
    | (.ok (.inl cycles), s) => (.ok cycles, s)
    | (.ok (.inr scheduler), s) => passes limit find left (done + 1) scheduler s

/-- The main loop: passes until the user leaves or the limit on cycles is found reached. The answer
    is how many cycles there have been. -/
def mainLoop (limit : Option Nat) (polls : Polls) (s : Station) :
    Except RunError Nat × Station :=
  passes limit polls.find polls.count 0 (Scheduler.start s.rates s.clock) s

end Station

end Chip8
