import Chip8.CommandLine.Reader
import Chip8.Console.Station
import Chip8.Display.Glyph
import Chip8.Display.Panel
import Chip8.FileTree
import Chip8.Keyboard.Basic

set_option autoImplicit false

/-! # Sessions

A session is one run of the program as its caller sees it: the command line goes in, and an exit
status with what was written on the two output streams comes out. The program file is read before
the terminal is touched, so a bad file leaves the terminal alone. -/

namespace Chip8

/-! ## Outcomes -/

/-- What the caller of the program sees. -/
structure Outcome where
  /-- The exit status. -/
  status : Nat
  /-- What was written on the standard output. -/
  output : String
  /-- What was written on the standard error. -/
  errors : String
  deriving DecidableEq, Inhabited

/-- The answer to a question for the version. -/
def versionText : String := "chip8-vm 0.1.0\n"

/-- The answer to a question for help. -/
def helpText : String :=
  "Run a CHIP-8 program in the terminal\n\n"
    ++ "The keypad is the left-hand block of the keyboard (1234/qwer/asdf/zxcv); Esc quits\n\n"
    ++ "Usage: chip8-vm [OPTIONS] <ROM>\n\n"
    ++ "      --ips <IPS>                instructions per second [default: 700]\n"
    ++ "      --renderer <RENDERER>      tui or glyph [default: tui]\n"
    ++ "      --beep                     sound the PC speaker while the sound timer runs\n"
    ++ "      --max-cycles <MAX_CYCLES>  stop after this many instruction cycles\n"
    ++ "      --shift-uses-vy            8XY6/8XYE shift VY rather than VX\n"
    ++ "      --load-store-bumps-i       FX55/FX65 advance I past the registers they copy\n"
    ++ "      --seed <SEED>              seed for the random number instruction\n"
    ++ "      --log-level <LOG_LEVEL>    off, error, warn, info, debug or trace [default: warn]\n"
    ++ "  -h, --help                     print this text\n"
    ++ "  -V, --version                  print the version\n"

/-- What a command line that leads to no run comes to. -/
def UsageError.outcome (e : UsageError) : Outcome :=
  match e with
  | .help => { status := e.exitCode, output := helpText, errors := "" }
  | .version => { status := e.exitCode, output := versionText, errors := "" }
  | _ => { status := e.exitCode, output := "", errors := "usage: chip8-vm [OPTIONS] <ROM>\n" }

/-- What is written on the terminal before the first picture. -/
def Renderer.opening : Renderer → String
  | .panel => clearCode ++ Panel.hideCursorCode
  | .glyph => ""

/-- What is written on the terminal after the last picture. -/
def Renderer.closing : Renderer → String
  | .panel => Panel.showCursorCode
  | .glyph => ""

/-- What a run is reported with on the standard error: nothing if it went well; a fault comes with
    the registers at its time. -/
def report : Except RunError Nat → String
  | .ok _ => ""
  | .error (.fault fault) =>
    "fault: " ++ fault.message ++ "\n" ++ fault.registers.dump ++ "\n"
  | .error e => "error: " ++ e.message ++ "\n"

/-- The exit status of a run. -/
def exitStatus : Except RunError Nat → Nat
  | .ok _ => 0
  | .error _ => 1

/-! ## Runs -/

/-- The station for the given settings, with the program in place. There is none if the program
    keeps the loader waiting for ever. -/
def Settings.station (s : Settings) (seed : Seed) (threshold : Option Level)
    (found : Except FileError Source) : Option (Except RunError Station) :=
  ((Machine.fresh s.dialect seed).load (Source.ofFound found)).map fun
    | (.error e, _) => .error (.load e)
    | (.ok size, machine, _) =>
      let sound := if s.beep then SoundDevice.unfit else SoundDevice.willing
      let station : Station :=
        { console := { machine },
          rates := s.rates,
          devices := { beep := sound .beep, silence := sound .silence },
          threshold := threshold }
      .ok (station.note [.loaded size s.rom])

/-- What the keyboard has in store for a poll at the time `now`. -/
def Keyboard.look (k : Keyboard) (now : Nat) : Poll × Keyboard :=
  let k := k.refresh now
  ({ keys := k.heldKeys, quit := k.quit }, k)

/-- Passes of the main loop with a terminal's keyboard that nobody touches any more. There is no
    answer if a pass gets so far as to draw a frame. -/
def typedPasses (limit : Option Nat) :
    Nat → Keyboard → Scheduler → Station → Option (Except RunError Nat)
  | 0, _, _, _ => none
  | fuel + 1, keyboard, scheduler, station =>
    let seen := keyboard.look station.clock
    match station.pass limit seen.1 scheduler with
    | (.error e, _) => some (.error e)
    | (.ok (.inl cycles), _) => some (.ok cycles)
    | (.ok (.inr scheduler), station) =>
      if 0 < station.frames then none
      else typedPasses limit fuel seen.2 scheduler station

/-- The end of the main loop, if it comes before the first frame is drawn, for a keyboard on which
    `typed` has been typed at the start. When a cycle and a frame fall due together the cycle comes
    first, so it can still end the loop. Every pass sleeps for a nanosecond at least, so the first
    frame is drawn within as many passes as its period has nanoseconds, and one more. -/
def Station.runTyped (s : Station) (limit : Option Nat) (typed : List KeyPress) :
    Option (Except RunError Nat) :=
  let scheduler := Scheduler.start s.rates s.clock
  let keyboard := (({} : Keyboard).pressAll s.clock typed).1
  typedPasses limit (scheduler.frames.period + 1) keyboard scheduler s

/-- The session for a command line, among the given files and with what has been typed at the start.
    There is no answer if the run goes on until a frame is drawn or never gets to run. -/
def session (args : List String) (files : FileTree) (typed : List KeyPress) :
    Option Outcome :=
  match readArguments args with
  | .error e => some e.outcome
  | .ok options =>
    let settings := options.settings
    let seed := UInt64.ofNat (settings.seed.getD 0)
    match settings.station seed none (files.read settings.rom) with
    | none => none
    | some (.error e) => some { status := 1, output := "\n", errors := report (.error e) }
    | some (.ok station) =>
      (station.runTyped settings.maxCycles typed).map fun result =>
        { status := exitStatus result,
          output := settings.renderer.opening ++ settings.renderer.closing ++ "\n",
          errors := report result }

end Chip8
