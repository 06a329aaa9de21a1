import Chip8.Main
import Chip8.Machine.Run
import Chip8.Keyboard.Script
import Chip8.Proofs.Arithmetic
import Chip8.Proofs.Causes
import Chip8.Proofs.Chance
import Chip8.Proofs.Devices
import Chip8.Proofs.Dialects
import Chip8.Proofs.Feeding
import Chip8.Proofs.Frames
import Chip8.Proofs.HeldKeys
import Chip8.Proofs.Limits
import Chip8.Proofs.Mnemonics
import Chip8.Proofs.Nesting
import Chip8.Proofs.Patterns
import Chip8.Proofs.Rates
import Chip8.Proofs.Repeats
import Chip8.Proofs.Reports
import Chip8.Proofs.Requests
import Chip8.Proofs.Rows
import Chip8.Proofs.Senses
import Chip8.Proofs.Snapshots
import Chip8.Proofs.Sounding
import Chip8.Proofs.Sprites
import Chip8.Proofs.Timers
import Chip8.Proofs.Trace
import Chip8.Proofs.Transfer
