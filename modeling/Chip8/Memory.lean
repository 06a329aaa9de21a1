import Chip8.FaultKind

set_option autoImplicit false

/-! # Memory

Four kilobytes: the font from address 0 on, room for the interpreter up to 0x1ff, then program and
data. Every access names a first address and a length and is checked as a whole before a byte is
touched: it succeeds iff it ends at or below the top of memory, and otherwise reports the first
address that lies beyond. So an empty access at the top succeeds, and one past the top does not.

Memory is looked at through `Memory.get`, the byte at an address. -/

namespace Chip8

/-- The addressable memory. -/
structure Memory where
  /-- The byte at each address. -/
  bytes : Vector UInt8 4096
  deriving DecidableEq, Inhabited

namespace Memory

abbrev size : Nat := 4096

/-- The byte at an address, and zero beyond memory. -/
def get (m : Memory) (addr : Nat) : UInt8 :=
  if h : addr < size then m.bytes[addr] else 0

/-! ## The font -/

/-- Where the font lies. -/
def fontStart : UInt16 := 0x000

/-- How many bytes, one per row of pixels, a glyph of the font takes. -/
def glyphBytes : UInt16 := 5

/-- The glyphs of the digits 0 to F, five rows each, drawn with the left four pixels. -/
def font : List UInt8 :=
  [0xF0, 0x90, 0x90, 0x90, 0xF0,
   0x20, 0x60, 0x20, 0x20, 0x70,
   0xF0, 0x10, 0xF0, 0x80, 0xF0,
   0xF0, 0x10, 0xF0, 0x10, 0xF0,
   0x90, 0x90, 0xF0, 0x10, 0x10,
   0xF0, 0x80, 0xF0, 0x10, 0xF0,
   0xF0, 0x80, 0xF0, 0x90, 0xF0,
   0xF0, 0x10, 0x20, 0x40, 0x40,
   0xF0, 0x90, 0xF0, 0x90, 0xF0,
   0xF0, 0x90, 0xF0, 0x10, 0xF0,
   0xF0, 0x90, 0xF0, 0x90, 0x90,
   0xE0, 0x90, 0xE0, 0x90, 0xE0,
   0xF0, 0x80, 0x80, 0x80, 0xF0,
   0xE0, 0x90, 0x90, 0x90, 0xE0,
   0xF0, 0x80, 0xF0, 0x80, 0xF0,
   0xF0, 0x80, 0xF0, 0x80, 0x80]

/-! ## Unchecked updates -/

/-- The memory with `data` from `addr` on; what would lie beyond memory is dropped. -/
def store (m : Memory) (addr : Nat) : List UInt8 → Memory
  | [] => m
  | b :: rest => store { bytes := m.bytes.setIfInBounds addr b } (addr + 1) rest

theorem get_set (m : Memory) (addr a : Nat) (b : UInt8) (ha : a < size) :
    get { bytes := m.bytes.setIfInBounds addr b } a = if addr = a then b else m.get a := by
  simp [get, Vector.getElem_setIfInBounds, ha]

/-- A stored range reads back as the data, and every other address is as before. -/
theorem get_store (m : Memory) (addr a : Nat) (data : List UInt8) (ha : a < size) :
    (m.store addr data).get a =
      if addr ≤ a ∧ a < addr + data.length then data.getD (a - addr) 0 else m.get a := by
  induction data generalizing m addr with
  | nil =>
    rw [List.length_nil, if_neg (by omega)]
    rfl
  | cons b rest ih =>
    rw [store, ih, get_set _ _ _ _ ha, List.length_cons]
    by_cases h : addr = a
    · subst h
      rw [if_neg (by omega), if_pos rfl, if_pos (by omega), Nat.sub_self]
      rfl
    · by_cases h' : addr + 1 ≤ a ∧ a < addr + 1 + rest.length
      · have hk : a - addr = (a - (addr + 1)) + 1 := by omega
        rw [if_pos h', if_pos (by omega), hk]
        rfl
      · rw [if_neg h', if_neg h, if_neg (by omega)]

theorem get_store_of_outside {m : Memory} {data : List UInt8} {addr a : Nat}
    (h : a < addr ∨ addr + data.length ≤ a) : (m.store addr data).get a = m.get a := by
  by_cases ha : a < size
  · rw [get_store _ _ _ _ ha, if_neg (by omega)]
  · rw [get, get, dif_neg ha, dif_neg ha]

/-- The memory after a reset: the font, and zeros. -/
def fresh : Memory :=
  store { bytes := Vector.replicate 4096 0 } fontStart.toNat font

/-! ## Checked access -/

/-- Does the range of `len` bytes at `addr` lie within memory? If not, which address beyond
    memory comes first? -/
def check (addr : UInt16) (len : Nat) : Except FaultKind Unit :=
  if addr.toNat + len ≤ size then .ok ()
  else .error (.addressOutOfRange (max addr.toNat size))

def read (m : Memory) (addr : UInt16) (len : Nat) : Except FaultKind (List UInt8) :=
  (check addr len).map fun _ => (List.range len).map fun k => m.get (addr.toNat + k)

def write (m : Memory) (addr : UInt16) (data : List UInt8) : Except FaultKind Memory :=
  (check addr data.length).map fun _ => m.store addr.toNat data

/-- The memory with `len` bytes from `addr` on set to `value`. -/
def fill (m : Memory) (addr : UInt16) (len : Nat) (value : UInt8) : Except FaultKind Memory :=
  (check addr len).map fun _ => m.store addr.toNat (List.replicate len value)

def byte (m : Memory) (addr : UInt16) : Except FaultKind UInt8 :=
  (check addr 1).map fun _ => m.get addr.toNat

def setByte (m : Memory) (addr : UInt16) (value : UInt8) : Except FaultKind Memory :=
  m.write addr [value]

/-- The two bytes at `addr` as a word, the high byte first. -/
def word (m : Memory) (addr : UInt16) : Except FaultKind UInt16 :=
  (check addr 2).map fun _ =>
    UInt16.ofNat (256 * (m.get addr.toNat).toNat + (m.get (addr.toNat + 1)).toNat)

/-- All bytes, from address 0 on. -/
def toList (m : Memory) : List UInt8 := m.bytes.toList

end Memory

end Chip8
