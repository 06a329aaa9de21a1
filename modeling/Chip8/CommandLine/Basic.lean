import Chip8.Clock.Scheduler
import Chip8.Log
import Chip8.Machine.Basic

set_option autoImplicit false

/-! # The command line

What can be asked for on the command line: the path of a program, six options that take a value and
three flags. A command line is read into `Options`; what the console needs of them is in
`Settings`. -/

namespace Chip8

/-- How the picture is shown. -/
inductive Renderer where
  | panel
  /-- In full-block glyphs, line by line. -/
  | glyph
  deriving DecidableEq, Inhabited

/-- What a renderer is called on the command line. -/
def Renderer.name : Renderer → String
  | .panel => "tui"
  | .glyph => "glyph"

/-- The instruction cycles a second unless told otherwise. -/
def defaultRate : Nat := 700

/-- The frames a second, which the hardware fixes. -/
def frameRate : Nat := 60

/-- Everything that a command line says. -/
structure Options where
  rom : String
  ips : Nat := defaultRate
  renderer : Renderer := .panel
  beep : Bool := false
  maxCycles : Option Nat := none
  shiftUsesVy : Bool := false
  loadStoreBumpsIndex : Bool := false
  seed : Option Nat := none
  /-- The least grave level of records that are shown, if any are. -/
  logLevel : Option Level := some .warn
  deriving DecidableEq

/-- Everything that the console needs to know. -/
structure Settings where
  rom : String
  rates : Rates
  renderer : Renderer
  beep : Bool
  maxCycles : Option Nat
  dialect : Dialect
  seed : Option Nat
  deriving DecidableEq

/-- What the console needs to know of a command line. -/
def Options.settings (o : Options) : Settings where
  rom := o.rom
  rates := { cycles := o.ips, frames := frameRate }
  renderer := o.renderer
  beep := o.beep
  maxCycles := o.maxCycles
  dialect := { shiftUsesVy := o.shiftUsesVy, loadStoreBumpsIndex := o.loadStoreBumpsIndex }
  seed := o.seed

/-! ## What an argument can name -/

/-- An argument that takes a value. -/
inductive Slot where
  | rom
  | ips
  | renderer
  | maxCycles
  | seed
  | logLevel
  deriving DecidableEq, Inhabited

/-- An argument that is either there or not. -/
inductive Flag where
  | beep
  | shiftUsesVy
  | loadStoreBumpsIndex
  deriving DecidableEq, Inhabited

/-- What can follow the two dashes of an argument. -/
inductive LongName where
  | slot (s : Slot)
  | flag (f : Flag)
  | help
  | version
  deriving DecidableEq, Inhabited

/-- The long names; only a full name will do. -/
def longNames : List (String × LongName) :=
  [("ips", .slot .ips), ("renderer", .slot .renderer), ("beep", .flag .beep),
   ("max-cycles", .slot .maxCycles), ("shift-uses-vy", .flag .shiftUsesVy),
   ("load-store-bumps-i", .flag .loadStoreBumpsIndex), ("seed", .slot .seed),
   ("log-level", .slot .logLevel), ("help", .help), ("version", .version)]

/-! ## Why a command line is not run -/

/-- Why a command line does not lead to a run. -/
inductive UsageError where
  | help
  | version
  | missingRom
  /-- The argument is none that is known, or one too many. -/
  | unknownArgument (arg : String)
  /-- An option is without its value, or the path is empty. -/
  | missingValue (slot : Slot)
  /-- The value is not among those that the option takes. -/
  | notListed (slot : Slot) (value : String)
  /-- The value does not read as what the option takes. -/
  | malformed (slot : Slot) (value : String)
  /-- A value is attached to a flag. -/
  | unwantedValue (name : String)
  | slotTwice (slot : Slot)
  | flagTwice (flag : Flag)
  deriving DecidableEq, Inhabited

/-- The exit status: asking for help or for the version is no mistake. -/
def UsageError.exitCode : UsageError → Nat
  | .help | .version => 0
  | _ => 2

end Chip8
