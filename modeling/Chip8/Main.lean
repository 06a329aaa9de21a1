import Chip8.Session

set_option autoImplicit false

/-! # The program

The session of `Chip8.Session` on a real terminal: the same passes of the main loop, with the time
of the host's clock, the characters that arrive on the standard input and the pictures written on
the standard output. -/

namespace Chip8.Main

/-- The reason that the host gives for not reading a file. Its number comes as it is or negated. -/
def fileError (e : IO.Error) : FileError :=
  match e with
  | .noFileOrDirectory _ _ _ => .missing
  | .inappropriateType _ code _ | .invalidArgument _ code _ =>
    match min code.toNat (UInt32.size - code.toNat) with
    | 20 => .notDirectory
    | 21 => .directory
    | 36 => .tooLong
    | _ => .other (toString e)
  | _ => .other (toString e)

/-- The first bytes that are left in a file, `room` of them at most. -/
partial def readFirst (handle : IO.FS.Handle) (room : Nat) (read : ByteArray) : IO ByteArray := do
  if room = 0 then return read
  let chunk ← handle.read (USize.ofNat room)
  if chunk.isEmpty then return read
  readFirst handle (room - chunk.size) (read ++ chunk)

/-- What there is to read at a path, as much as the loader looks at. -/
def openFile (path : String) : IO (Except FileError Source) := do
  try
    let handle ← IO.FS.Handle.mk path .read
    let content ← readFirst handle (maxProgramBytes + 1) ByteArray.empty
    return .ok (.ofBytes content.toList)
  catch e => return .error (fileError e)

/-- The key press that a character on the standard input stands for. -/
def pressOfChar (c : Char) : KeyPress :=
  if c = '\x1b' then { key := .esc }
  else if c = '\x03' then { key := .char 'c', ctrl := true }
  else if c = '\n' ∨ c = '\r' then { key := .enter }
  else if c = '\t' then { key := .tab }
  else if c = '\x7f' then { key := .backspace }
  else { key := .char c }

/-- Gathers the key presses that arrive on the standard input, for as long as they do. -/
partial def listen (input : IO.FS.Stream) (typed : IO.Ref (List KeyPress)) : IO Unit := do
  let line ← input.getLine
  if line.isEmpty then return
  typed.modify (· ++ line.toList.map pressOfChar)
  listen input typed

/-- The picture as it is written on the terminal. -/
def pictureText (renderer : Renderer) (screen : Screen) : String :=
  match renderer with
  | .panel => Panel.frame screen
  | .glyph => screen.frame

/-- Writes log records on the standard error. -/
def showLog (records : List Record) : IO Unit :=
  records.forM fun r => IO.eprintln r.line

/-- Does what the events of a pass ask for. -/
def perform (output : IO.FS.Stream) (renderer : Renderer) (events : List Event) : IO Unit :=
  events.forM fun
    | .draw _ screen => do
      output.putStr (pictureText renderer screen)
      output.flush
    | _ => pure ()

/-- Passes of the main loop, until it ends. -/
partial def loop (options : Options) (output : IO.FS.Stream) (typed : IO.Ref (List KeyPress))
    (keyboard : Keyboard) (scheduler : Scheduler) (station : Station) :
    IO (Except RunError Nat) := do
  let now ← IO.monoNanosNow
  let presses ← typed.modifyGet fun presses => (presses, [])
  let (keyboard, log) := keyboard.pressAll now presses
  showLog (log.filter (·.visibleAt options.logLevel))
  let (poll, keyboard) := keyboard.look now
  let (result, station) := { station with clock := now }.pass options.maxCycles poll scheduler
  showLog station.journal.log.toList
  perform output options.renderer station.journal.events.toList
  match result with
  | .error e => return .error e
  | .ok (.inl cycles) => return .ok cycles
  | .ok (.inr scheduler) =>
    let nanos := station.journal.sleeps.foldl (· + ·) 0
    IO.sleep (UInt32.ofNat (nanos / 1000000))
    loop options output typed keyboard scheduler station.turnPage

/-- The main loop on the terminal, from a station that has its program in place. -/
def play (options : Options) (station : Station) : IO (Except RunError Nat) := do
  let output ← IO.getStdout
  let typed ← IO.mkRef []
  let _ ← IO.asTask (listen (← IO.getStdin) typed) Task.Priority.dedicated
  showLog station.journal.log.toList
  let start ← IO.monoNanosNow
  try
    output.putStr options.renderer.opening
    output.flush
    let result ← loop options output typed {} (Scheduler.start station.rates start)
      station.turnPage
    output.putStr options.renderer.closing
    return result
  catch e => return .error (.device (toString e))

/-- The seed that the command line asks for, or a key from the system. -/
def seedOf (settings : Settings) : IO Seed := do
  match settings.seed with
  | some seed => return .number (UInt64.ofNat seed)
  | none =>
    let bytes ← IO.getRandomBytes 32
    return .key <| Vector.ofFn fun word =>
      (List.range 4).foldr (fun i w => 256 * w + (bytes.get! (4 * word.val + i)).toUInt32) 0

/-- Runs a command line that makes sense, and gives the exit status. -/
def runOptions (options : Options) : IO UInt32 := do
  let settings := options.settings
  let result ←
    match settings.station (← seedOf settings) options.logLevel (← openFile settings.rom) with
    | none => throw (IO.userError "the program never ends")
    | some (.error e) => pure (.error e)
    | some (.ok station) => play options station
  IO.println ""
  match result with
  | .ok cycles => showLog ([Record.finished cycles].filter (·.visibleAt options.logLevel))
  | .error _ => IO.eprint (report result)
  return UInt32.ofNat (exitStatus result)

end Chip8.Main

/-- The program. -/
def main (args : List String) : IO UInt32 := do
  match Chip8.readArguments args with
  | .error e =>
    let outcome := e.outcome
    IO.print outcome.output
    IO.eprint outcome.errors
    return UInt32.ofNat outcome.status
  | .ok options => Chip8.Main.runOptions options
