set_option autoImplicit false

/-! # The keypad

Sixteen keys, 0 to F. A *snapshot* tells which keys are held and names one that has gone down since
the snapshot before: the first of the held keys, in the order in which they are listed, that was
not held then. Bytes of sixteen and above name no key when a snapshot is made; when a program asks
for a key, only the low digit of the byte counts. -/

namespace Chip8

/-- What the keypad looked like at one moment. -/
structure Keypad where
  /-- Which keys are held. -/
  held : Vector Bool 16 := Vector.replicate 16 false
  /-- A key that is held now and was not held in the snapshot before. -/
  newlyPressed : Option UInt8 := none
  deriving DecidableEq, Inhabited

namespace Keypad

/-- The keypad with no key held. -/
def idle : Keypad := {}

/-- Is the key held? Only the low digit of the byte counts. -/
def isPressed (k : Keypad) (key : UInt8) : Bool := k.held[key.toNat % 16]

/-- Does the byte name a key that was not held in the snapshot `previous`? -/
def isNews (previous : Keypad) (key : UInt8) : Bool :=
  key < 16 && !previous.isPressed key

/-- The snapshot with the listed keys held, taken after the snapshot `previous`. -/
def ofKeys (keys : List UInt8) (previous : Keypad) : Keypad where
  held := Vector.ofFn fun key => keys.any fun k => k.toNat == key.val
  newlyPressed := keys.find? previous.isNews

/-- The keys held, in ascending order. -/
def heldKeys (k : Keypad) : List Nat :=
  (List.range 16).filter fun key => k.isPressed (UInt8.ofNat key)

/-- A key is held iff it was listed. -/
theorem isPressed_ofKeys (keys : List UInt8) (previous : Keypad) (key : UInt8) :
    (ofKeys keys previous).isPressed key = keys.any fun k => k.toNat == key.toNat % 16 := by
  simp [isPressed, ofKeys]

theorem isPressed_iff_lowDigit_mem {keys : List UInt8} {previous : Keypad} {b : UInt8} :
    (ofKeys keys previous).isPressed b = true ↔ b % 16 ∈ keys := by
  have hdigit : b.toNat % 16 = (b % 16).toNat := (UInt8.toNat_mod b 16).symm
  rw [isPressed_ofKeys, hdigit]
  simp only [List.any_eq_true, beq_iff_eq, UInt8.toNat_inj, exists_eq_right]

theorem isPressed_iff_mem {keys : List UInt8} {previous : Keypad} {key : UInt8} (hkey : key < 16) :
    (ofKeys keys previous).isPressed key = true ↔ key ∈ keys := by
  have hdigit : key % 16 = key := by
    rw [← UInt8.toNat_inj, UInt8.toNat_mod]
    exact Nat.mod_eq_of_lt (UInt8.lt_iff_toNat_lt.mp hkey)
  rw [isPressed_iff_lowDigit_mem, hdigit]

end Keypad

end Chip8
