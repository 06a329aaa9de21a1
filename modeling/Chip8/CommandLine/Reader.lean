import Chip8.CommandLine.Basic

set_option autoImplicit false

/-! # Reading a command line

Arguments are read from left to right. A value may be attached to its option with an equals sign or
follow as the next argument. In the second case the option stays *open*: its value is looked at only
when the next thing is taken in, so an argument that is unknown is reported before a value that is
malformed. What begins with a dash is never the value of an option, a lone dash apart. After two
dashes alone, everything is a path. -/

namespace Chip8

/-! ## Values -/

/-- The numbers that an option takes are below this bound. -/
def numberBound : Nat := UInt64.size

/-- Reads the value of an option that takes a number. -/
def readNumber (slot : Slot) (value : String) : Except UsageError Nat :=
  match Numeral.readDecimal? numberBound value with
  | some n => .ok n
  | none => .error (.malformed slot value)

def readRenderer (value : String) : Except UsageError Renderer :=
  match [Renderer.panel, Renderer.glyph].find? (·.name == value) with
  | some r => .ok r
  | none => .error (.notListed .renderer value)

/-- Reads a level by its name in capital or small letters. -/
def readLevel (value : String) : Except UsageError (Option Level) :=
  let name := String.ofList (value.toList.map Char.toUpper)
  if name = "OFF" then .ok none
  else
    match [Level.error, .warn, .info, .debug, .trace].find? (·.name == name) with
    | some level => .ok (some level)
    | none => .error (.malformed .logLevel value)

/-- Reads the path of a program, which is not empty. -/
def readPath (value : String) : Except UsageError String :=
  if value.isEmpty then .error (.missingValue .rom) else .ok value

/-! ## What has been given -/

/-- What has been read off the arguments so far. -/
structure Given where
  rom : Option String := none
  ips : Option Nat := none
  renderer : Option Renderer := none
  maxCycles : Option Nat := none
  seed : Option Nat := none
  logLevel : Option (Option Level) := none
  flags : List Flag := []
  deriving DecidableEq, Inhabited

namespace Given

/-- Has the slot been filled? -/
def has (g : Given) : Slot → Bool
  | .rom => g.rom.isSome
  | .ips => g.ips.isSome
  | .renderer => g.renderer.isSome
  | .maxCycles => g.maxCycles.isSome
  | .seed => g.seed.isSome
  | .logLevel => g.logLevel.isSome

/-- Reads a value into its slot. -/
def fill (g : Given) (slot : Slot) (value : String) : Except UsageError Given :=
  match slot with
  | .rom => (readPath value).map fun path => { g with rom := some path }
  | .ips => (readNumber slot value).map fun n => { g with ips := some n }
  | .renderer => (readRenderer value).map fun r => { g with renderer := some r }
  | .maxCycles => (readNumber slot value).map fun n => { g with maxCycles := some n }
  | .seed => (readNumber slot value).map fun n => { g with seed := some n }
  | .logLevel => (readLevel value).map fun level => { g with logLevel := some level }

/-- Takes in a slot with its value, if it has one. A slot takes one value, once; whether the value
    reads well is looked at last. -/
def takeSlot (g : Given) (slot : Slot) (value : Option String) : Except UsageError Given :=
  match value with
  | none => .error (.missingValue slot)
  | some value => if g.has slot then .error (.slotTwice slot) else g.fill slot value

def takeFlag (g : Given) (flag : Flag) : Except UsageError Given :=
  if flag ∈ g.flags then .error (.flagTwice flag) else .ok { g with flags := flag :: g.flags }

/-- The options, with defaults for what has not been given. -/
def options (g : Given) : Except UsageError Options :=
  match g.rom with
  | none => .error .missingRom
  | some rom =>
    .ok
      { rom,
        ips := g.ips.getD defaultRate,
        renderer := g.renderer.getD .panel,
        beep := .beep ∈ g.flags,
        maxCycles := g.maxCycles,
        shiftUsesVy := .shiftUsesVy ∈ g.flags,
        loadStoreBumpsIndex := .loadStoreBumpsIndex ∈ g.flags,
        seed := g.seed,
        logLevel := g.logLevel.getD (some .warn) }

end Given

/-! ## Arguments -/

/-- The state of the reading between two arguments. -/
structure Reading where
  given : Given := {}
  /-- A slot that has been named but not taken in, with its value if that has been seen. -/
  «open» : Option (Slot × Option String) := none
  /-- Have the two dashes been seen, after which everything is a path? -/
  pathsOnly : Bool := false
  deriving DecidableEq, Inhabited

namespace Reading

def settle (r : Reading) : Except UsageError Reading :=
  match r.open with
  | none => .ok r
  | some (slot, value) =>
    (r.given.takeSlot slot value).map fun given => { r with given, «open» := none }

/-- Reads an argument that is neither named nor the value of an option: the path, or one too
    many. -/
def path (r : Reading) (arg : String) : Except UsageError Reading :=
  let named := r.given.rom.isSome || r.open.any (·.1 == .rom)
  if named then .error (.unknownArgument arg)
  else r.settle.map fun r => { r with «open» := some (.rom, some arg) }

/-- Reads an argument with a long name, and the value attached to it if there is one. -/
def long (r : Reading) (name : String) (attached : Option String) : Except UsageError Reading :=
  match longNames.lookup name, attached with
  | none, _ => .error (.unknownArgument ("--" ++ name))
  | some (.slot slot), none => r.settle.map fun r => { r with «open» := some (slot, none) }
  | some (.slot slot), some value => do
    let r ← r.settle
    return { r with given := ← r.given.takeSlot slot (some value) }
  | some _, some _ => .error (.unwantedValue name)
  | some (.flag flag), none => do
    let r ← r.settle
    return { r with given := ← r.given.takeFlag flag }
  | some .help, none => do
    let _ ← r.settle
    throw .help
  | some .version, none => do
    let _ ← r.settle
    throw .version

def short (r : Reading) (name : Char) : Except UsageError Reading :=
  match name with
  | 'h' => r.long "help" none
  | 'V' => r.long "version" none
  | _ => .error (.unknownArgument ("-" ++ name.toString))

def arg (r : Reading) (arg : String) : Except UsageError Reading :=
  if r.pathsOnly then r.path arg
  else
    match arg.toList with
    | ['-', '-'] => .ok { r with pathsOnly := true }
    | '-' :: '-' :: body =>
      let name := String.ofList (body.takeWhile (· != '='))
      match body.dropWhile (· != '=') with
      | _ :: value => r.long name (some (String.ofList value))
      | [] => r.long name none
    | '-' :: name :: _ => r.short name
    | _ =>
      match r.open with
      | some (slot, none) => .ok { r with «open» := some (slot, some arg) }
      | _ => r.path arg

end Reading

/-- Reads the arguments of a command line. -/
def readArguments (args : List String) : Except UsageError Options := do
  let r ← args.foldlM Reading.arg {}
  let r ← r.settle
  r.given.options

end Chip8
