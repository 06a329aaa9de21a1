import Chip8.Proofs.Aside

set_option autoImplicit false

/-! # Random bytes

The random stream is read in one place only, the instruction CXNN, and each time it is completed it
takes one word, whatever its mask is. So the position in the stream is a count of these instructions
along the history (`random_after`), and the next one of them gets the word at that position
(`random_bytes_follow_stream`). -/

namespace Chip8

/-- Is the instruction one that takes a random byte? -/
def Instruction.isRandom : Instruction → Bool
  | .random _ _ => true
  | _ => false

namespace Machine

/-- An act moves the random stream on by one word if it completes an instruction that takes a random
    byte, and else leaves it where it is. -/
theorem random_act (m : Machine) (a : Act) :
    (m.act a).random = { m.random with
      position := m.random.position + (m.completed a).toList.countP Instruction.isRandom } := by
  have haside : (m.act a).random = (m.aside.acted m a).random :=
    congrArg Aside.random (m.aside_act a)
  rw [haside]
  cases a with
  | load source => rfl
  | tick => rfl
  | step keys =>
    simp only [Aside.acted]
    cases m.completed (.step keys) with
    | none => rfl
    | some i => cases i <;> rfl

/-- The random stream has moved on by as many words as random bytes have been taken. -/
theorem random_after (m : Machine) (acts : List Act) :
    (m.after acts).random = { m.random with
      position := m.random.position + (m.completedIn acts).countP Instruction.isRandom } := by
  induction acts generalizing m with
  | nil => rfl
  | cons a rest ih =>
    rw [after_cons, ih, random_act, completedIn, List.countP_append, Nat.add_assoc]

/-- **Random bytes follow the seeded stream one for one.** After any history the random stream
    stands where the history has taken as many words from it as it has completed instructions CXNN.
    The next one of them puts the low byte of the word that stands there, masked by NN, into VX, and
    takes that one word from the stream even if the mask lets nothing through. -/
theorem random_bytes_follow_stream (dialect : Dialect) (seed : Seed) (acts : List Act) :
    let m := (fresh dialect seed).after acts
    let taken := ((fresh dialect seed).completedIn acts).countP Instruction.isRandom
    m.random = { key := keyOfSeed seed, position := taken } ∧
    ∀ keys x nn, m.completed (.step keys) = some (.random x nn) →
      (m.step keys).machine = { m with
        registers :=
          { m.registers.setV x ((KeyStream.wordAt (keyOfSeed seed) taken).toUInt8 &&& nn) with
            pc := m.registers.pc + 2 },
        random := { key := keyOfSeed seed, position := taken + 1 } } := by
  intro m taken
  have hrandom : m.random = { key := keyOfSeed seed, position := taken } := by
    have hafter := (fresh dialect seed).random_after acts
    rwa [show (fresh dialect seed).random.position = 0 from rfl, Nat.zero_add] at hafter
  refine ⟨hrandom, ?_⟩
  intro keys x nn hi
  obtain ⟨-, -, flow, m', hexec, -, hstep⟩ := step_of_completed hi
  simp only [execute, hrandom] at hexec
  cases hexec
  rw [hstep]
  rfl

/-- A program that takes three random bytes, the second of them under the mask zero. -/
def threeBytes : Act := .load (.ofBytes [0xc0, 0x0f, 0xc1, 0x00, 0xc2, 0xff])

/-- The third byte is the low byte of the third word, with ticks and another load in between. -/
theorem threeBytes_takes_third_word :
    let m := (fresh {} 7).after [threeBytes, .step .idle, .tick, .step .idle, threeBytes]
    m.completed (.step .idle) = some (.random 2 0xff) ∧ m.random.position = 2 ∧
    (m.step .idle).machine.v 2 = (KeyStream.wordAt (keyOfSeed 7) 2).toUInt8 &&& 0xff ∧
    (m.step .idle).machine.random.position = 3 := by
  obtain ⟨hrandom, hstep⟩ := random_bytes_follow_stream {} 7
    [threeBytes, .step .idle, .tick, .step .idle, threeBytes]
  obtain ⟨hi, htaken⟩ : ((fresh {} 7).after [threeBytes, .step .idle, .tick, .step .idle,
        threeBytes]).completed (.step .idle) = some (.random 2 0xff) ∧
      ((fresh {} 7).completedIn [threeBytes, .step .idle, .tick, .step .idle, threeBytes]).countP
        Instruction.isRandom = 2 := by
    decide +kernel
  rw [htaken] at hrandom hstep
  generalize (fresh {} 7).after [threeBytes, .step .idle, .tick, .step .idle, threeBytes] = m
    at hrandom hstep hi ⊢
  have hthird := hstep .idle 2 0xff hi
  have hvalue : (m.step .idle).machine.v 2 =
      (KeyStream.wordAt (keyOfSeed 7) 2).toUInt8 &&& 0xff := by
    rw [hthird]
    exact (Registers.v_setV _ _ _ _).trans (if_pos rfl)
  have hposition : (m.step .idle).machine.random.position = 3 := by rw [hthird]
  exact ⟨hi, congrArg KeyStream.position hrandom, hvalue, hposition⟩

end Machine

end Chip8
