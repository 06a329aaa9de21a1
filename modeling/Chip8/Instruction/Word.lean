import Chip8.Table

set_option autoImplicit false

/-! # Fields of an instruction word

An instruction is a 16-bit word read as four hexadecimal digits: the family, then operands. The
fields overlap: `x`, `y` and `n` are the second, third and fourth digit, `nn` is the last two
digits and `nnn` the last three. -/

namespace Chip8

/-- A 16-bit word: an instruction, an address or the index register. -/
abbrev Word := UInt16

namespace Word

/-- The first digit, which picks the family of the instruction. -/
def family (w : Word) : Fin 16 := Fin.ofNat 16 (w.toNat / 4096)

/-- The second digit, a register. -/
def x (w : Word) : Fin 16 := Fin.ofNat 16 (w.toNat / 256)

/-- The third digit, a register. -/
def y (w : Word) : Fin 16 := Fin.ofNat 16 (w.toNat / 16)

/-- The fourth digit: a sprite height, or what tells the members of a family apart. -/
def n (w : Word) : Fin 16 := Fin.ofNat 16 w.toNat

/-- The low byte, an immediate operand. -/
def nn (w : Word) : UInt8 := UInt8.ofNat w.toNat

/-- The low twelve bits, an address. -/
def nnn (w : Word) : UInt16 := UInt16.ofNat (w.toNat % 4096)

end Word

/-! ## Words from fields -/

/-- The word with the four digits `c`, `x`, `y` and `n`. -/
def Word.ofDigits (c x y n : Fin 16) : Word :=
  UInt16.ofNat (4096 * c.val + 256 * x.val + 16 * y.val + n.val)

/-- The word of the family `c`, the register `x` and the immediate `nn`. -/
def Word.ofImmediate (c x : Fin 16) (nn : UInt8) : Word :=
  UInt16.ofNat (4096 * c.val + 256 * x.val + nn.toNat)

/-- The word of the family `c` and the address `addr`. -/
def Word.ofAddress (c : Fin 16) (addr : UInt16) : Word :=
  UInt16.ofNat (4096 * c.val + addr.toNat % 4096)

theorem Word.toNat_ofDigits (c x y n : Fin 16) :
    (ofDigits c x y n).toNat = 4096 * c.val + 256 * x.val + 16 * y.val + n.val := by
  have hc := c.isLt
  have hx := x.isLt
  have hy := y.isLt
  have hn := n.isLt
  rw [ofDigits, UInt16.toNat_ofNat_of_lt' (by rw [UInt16.size]; omega)]

theorem Word.toNat_ofImmediate (c x : Fin 16) (nn : UInt8) :
    (ofImmediate c x nn).toNat = 4096 * c.val + 256 * x.val + nn.toNat := by
  have hc := c.isLt
  have hx := x.isLt
  have hnn := nn.toNat_lt
  rw [ofImmediate, UInt16.toNat_ofNat_of_lt' (by rw [UInt16.size]; omega)]

theorem Word.toNat_ofAddress (c : Fin 16) (addr : UInt16) :
    (ofAddress c addr).toNat = 4096 * c.val + addr.toNat % 4096 := by
  have hc := c.isLt
  rw [ofAddress, UInt16.toNat_ofNat_of_lt' (by rw [UInt16.size]; omega)]

theorem Word.family_eq {w : Word} {c : Fin 16} (h : w.toNat / 4096 = c.val) : w.family = c := by
  apply Fin.ext
  rw [family, h, Fin.val_ofNat, Nat.mod_eq_of_lt c.isLt]

theorem Word.nn_eq {w : Word} {nn : UInt8} (h : w.toNat % 256 = nn.toNat) : w.nn = nn := by
  apply UInt8.toNat_inj.1
  rw [Word.nn, UInt8.toNat_ofNat', h]

/-- A word is its four digits. -/
theorem Word.ofDigits_fields (w : Word) : Word.ofDigits w.family w.x w.y w.n = w := by
  apply UInt16.toNat_inj.1
  have h : w.toNat < 65536 := w.toNat_lt
  simp only [ofDigits, family, x, y, n, Fin.val_ofNat, UInt16.toNat_ofNat']
  omega

/-- A word is its family, its second digit and its low byte. -/
theorem Word.ofImmediate_fields (w : Word) : Word.ofImmediate w.family w.x w.nn = w := by
  apply UInt16.toNat_inj.1
  have h : w.toNat < 65536 := w.toNat_lt
  simp only [ofImmediate, family, x, nn, Fin.val_ofNat, UInt16.toNat_ofNat', UInt8.toNat_ofNat']
  omega

/-- A word is its family and its address. -/
theorem Word.ofAddress_fields (w : Word) : Word.ofAddress w.family w.nnn = w := by
  apply UInt16.toNat_inj.1
  have h : w.toNat < 65536 := w.toNat_lt
  simp only [ofAddress, family, nnn, Fin.val_ofNat, UInt16.toNat_ofNat']
  omega

/-! ## Fields of words from fields -/

@[simp] theorem Word.family_ofDigits (c x y n : Fin 16) : (ofDigits c x y n).family = c := by
  apply Fin.ext
  rw [family, Fin.val_ofNat, toNat_ofDigits]
  omega

@[simp] theorem Word.x_ofDigits (c x y n : Fin 16) : (ofDigits c x y n).x = x := by
  apply Fin.ext
  rw [Word.x, Fin.val_ofNat, toNat_ofDigits]
  omega

@[simp] theorem Word.y_ofDigits (c x y n : Fin 16) : (ofDigits c x y n).y = y := by
  apply Fin.ext
  rw [Word.y, Fin.val_ofNat, toNat_ofDigits]
  omega

@[simp] theorem Word.n_ofDigits (c x y n : Fin 16) : (ofDigits c x y n).n = n := by
  apply Fin.ext
  rw [Word.n, Fin.val_ofNat, toNat_ofDigits]
  omega

@[simp] theorem Word.family_ofImmediate (c x : Fin 16) (nn : UInt8) :
    (ofImmediate c x nn).family = c := by
  have hnn := nn.toNat_lt
  apply Fin.ext
  rw [family, Fin.val_ofNat, toNat_ofImmediate]
  omega

@[simp] theorem Word.x_ofImmediate (c x : Fin 16) (nn : UInt8) : (ofImmediate c x nn).x = x := by
  have hnn := nn.toNat_lt
  apply Fin.ext
  rw [Word.x, Fin.val_ofNat, toNat_ofImmediate]
  omega

@[simp] theorem Word.nn_ofImmediate (c x : Fin 16) (nn : UInt8) :
    (ofImmediate c x nn).nn = nn := by
  have hnn := nn.toNat_lt
  apply nn_eq
  rw [toNat_ofImmediate]
  omega

@[simp] theorem Word.family_ofAddress (c : Fin 16) (addr : UInt16) :
    (ofAddress c addr).family = c := by
  apply Fin.ext
  rw [family, Fin.val_ofNat, toNat_ofAddress]
  omega

/-- An address of twelve bits comes back whole. -/
theorem Word.nnn_ofAddress (c : Fin 16) {addr : UInt16} (h : addr.toNat < 4096) :
    (ofAddress c addr).nnn = addr := by
  apply UInt16.toNat_inj.1
  rw [nnn, UInt16.toNat_ofNat', toNat_ofAddress]
  omega

/-- Addresses in instruction words have twelve bits. -/
theorem Word.nnn_lt (w : Word) : w.nnn.toNat < 4096 := by
  simp only [nnn, UInt16.toNat_ofNat']
  omega

end Chip8
