set_option autoImplicit false

/-! # Tables of sixteen

The hexadecimal digits are the numbers below sixteen. They pick a register, a key of the keypad or a
word of a key stream's state, so each of these is kept in a table with an entry for every digit. -/

namespace Chip8

/-- Every literal is a digit. The zero is spelled out, so that it does not depend on which other
    zeros of the naturals are in scope. -/
instance neZero_sixteen : @NeZero Nat Zero.ofOfNat0 16 := ⟨Nat.succ_ne_zero 15⟩

/-- A table with an entry for every digit. -/
abbrev Table (α : Type) := Vector α 16

namespace Table

variable {α : Type}

/-- The entry of a digit. -/
def entry (t : Table α) (x : Fin 16) : α := t[x]

/-- The table with another entry for a digit. -/
def put (t : Table α) (x : Fin 16) (a : α) : Table α := t.set x.val a

@[simp] theorem entry_put (t : Table α) (x y : Fin 16) (a : α) :
    (t.put x a).entry y = if x = y then a else t.entry y := by
  simp [entry, put, Vector.getElem_set, Fin.ext_iff]

@[simp] theorem entry_ofFn (f : Fin 16 → α) (x : Fin 16) : entry (Vector.ofFn f) x = f x := by
  simp [entry]

end Table

end Chip8
