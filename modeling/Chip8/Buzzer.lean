import Chip8.Log

set_option autoImplicit false

/-! # The buzzer

A buzzer of a single pitch that sounds while the sound timer runs. A sound device is asked for a
tone, the beep or silence, and may refuse; a refused request changes nothing. Following the timer
asks only when the tone has to change, and so asks again after a refusal. -/

namespace Chip8

/-- What a sound device can be asked for. -/
inductive Tone where
  | beep
  | silence
  deriving DecidableEq, Inhabited

/-- The pitch of the beep in hertz, a C. -/
def beepPitch : Nat := 2093

/-- The period that the speaker's timer is set to, in ticks of its 1193180 Hz clock; zero turns the
    speaker off. -/
def Tone.timerPeriod : Tone → Nat
  | .beep => 1193180 / beepPitch
  | .silence => 0

/-- What the sound device says to a request: nothing if it complies, else why it refuses. -/
abbrev SoundDevice := Tone → Option String

/-- The device that does whatever it is asked. -/
def SoundDevice.willing : SoundDevice := fun _ => none

/-- The device that refuses everything because it is no console. -/
def SoundDevice.unfit : SoundDevice := fun _ => some "ENOTTY: Not a typewriter"

/-- What is known about the sound device. -/
structure Buzzer where
  beeping : Bool := false
  /-- How many requests it has complied with. -/
  edges : Nat := 0
  deriving DecidableEq, Inhabited

namespace Buzzer

/-- What came of a request. -/
structure Answer where
  buzzer : Buzzer
  /-- The tone that the device was asked for, if it was asked. -/
  asked : Option Tone := none
  /-- Why the device refused, if it did. -/
  refusal : Option String := none
  deriving DecidableEq, Inhabited

def ask (b : Buzzer) (device : SoundDevice) (tone : Tone) : Answer :=
  match device tone with
  | some reason => { buzzer := b, asked := some tone, refusal := some reason }
  | none => { buzzer := { beeping := tone == .beep, edges := b.edges + 1 }, asked := some tone }

/-- Asks the device for a tone if there is one to ask for. -/
def ask? (b : Buzzer) (device : SoundDevice) : Option Tone → Answer
  | some tone => b.ask device tone
  | none => { buzzer := b }

/-- The tone to change to when the sound timer stands at `timer`. -/
def wanted (b : Buzzer) (timer : UInt8) : Option Tone :=
  match timer != 0, b.beeping with
  | true, false => some .beep
  | false, true => some .silence
  | _, _ => none

def follow (b : Buzzer) (device : SoundDevice) (timer : UInt8) : Answer :=
  b.ask? device (b.wanted timer)

/-- Leaves the device silent, at the end. -/
def close (b : Buzzer) (device : SoundDevice) : Answer :=
  b.ask? device (if b.beeping then some .silence else none)

/-- The tone that the device took, if it was asked for one and complied. -/
def Answer.sent (a : Answer) : Option Tone :=
  if a.refusal.isSome then none else a.asked

/-- What is logged about a request while the buzzer is in use. -/
def Answer.log (a : Answer) : List Record := a.refusal.toList.map .soundRefused

/-- What is logged about the last request, which leaves the device silent. -/
def Answer.closingLog (a : Answer) : List Record := a.refusal.toList.map .soundStuck

/-! ## Requests in sequence -/

/-- One thing that a buzzer can be told to do. -/
inductive Request where
  /-- Follow the sound timer, which stands at `timer`. -/
  | follow (timer : UInt8)
  /-- Ask for a tone, whatever the device is doing. -/
  | play (tone : Tone)
  deriving DecidableEq, Inhabited

/-- Carries out a request. -/
def perform (b : Buzzer) (device : SoundDevice) : Request → Answer
  | .follow timer => b.follow device timer
  | .play tone => b.ask device tone

end Buzzer

end Chip8
