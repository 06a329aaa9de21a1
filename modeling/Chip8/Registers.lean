import Chip8.FaultKind
import Chip8.Table

set_option autoImplicit false

/-! # The register file

Everything a program can see of the processor: sixteen byte registers V0 to VF (VF doubles as the
flag), the index register, the program counter, the call stack with its depth, and the two timers.

A return address that has been popped keeps its slot until a later call writes over it. -/

namespace Chip8

/-- Where the first instruction lies after a reset. -/
def programStart : UInt16 := 0x200

/-- How many return addresses fit on the call stack. -/
abbrev stackDepth : Nat := 16

/-- The processor's registers, its call stack and its timers. -/
structure Registers where
  /-- The registers V0 to VF. -/
  v : Table UInt8 := Vector.replicate 16 0
  /-- The index register. -/
  i : UInt16 := 0
  /-- The program counter. -/
  pc : UInt16 := programStart
  /-- How many return addresses are on the call stack. -/
  sp : Nat := 0
  /-- The slots of the call stack, live ones first. -/
  stack : Vector UInt16 stackDepth := Vector.replicate stackDepth 0
  /-- The delay timer. -/
  delay : UInt8 := 0
  /-- The sound timer. -/
  sound : UInt8 := 0
  deriving DecidableEq, Inhabited

namespace Registers

/-- The register file after a reset. -/
def reset : Registers := {}

/-! ## Byte registers -/

/-- The register that doubles as carry, borrow and collision flag. -/
def flag : Fin 16 := 0xf

/-- The register file with `value` in the register `x`. -/
def setV (r : Registers) (x : Fin 16) (value : UInt8) : Registers :=
  { r with v := r.v.put x value }

@[simp] theorem v_setV (r : Registers) (x y : Fin 16) (value : UInt8) :
    (r.setV x value).v.entry y = if x = y then value else r.v.entry y :=
  Table.entry_put _ _ _ _

/-- The register file with the flag up or down. -/
def setFlag (r : Registers) (up : Bool) : Registers :=
  r.setV flag (if up then 1 else 0)

/-- The register file with `values` in V0, V1 and so on, as far as they go. -/
def setFirst (r : Registers) (values : List UInt8) : Registers :=
  { r with v := Vector.ofFn fun x => values.getD x.val (r.v.entry x) }

theorem v_setFirst (r : Registers) (values : List UInt8) (x : Fin 16) :
    (r.setFirst values).v.entry x = values.getD x.val (r.v.entry x) :=
  Table.entry_ofFn _ _

/-- The registers behind the values stay as they are. -/
theorem v_setFirst_of_le (r : Registers) {values : List UInt8} {x : Fin 16}
    (h : values.length ≤ x.val) : (r.setFirst values).v.entry x = r.v.entry x := by
  rw [v_setFirst, List.getD_eq_getElem?_getD, List.getElem?_eq_none h, Option.getD_none]

/-! ## The call stack -/

/-- The register file with one more return address on the call stack. -/
def push (r : Registers) (addr : UInt16) : Except FaultKind Registers :=
  if h : r.sp < stackDepth then
    .ok { r with stack := r.stack.set r.sp addr h, sp := r.sp + 1 }
  else
    .error .stackOverflow

/-- The last return address, and the register file without it. -/
def pop (r : Registers) : Except FaultKind (UInt16 × Registers) :=
  if r.sp = 0 then
    .error .stackUnderflow
  else
    .ok (r.stack.getD (r.sp - 1) 0, { r with sp := r.sp - 1 })

/-- The return addresses on the call stack, oldest first. -/
def live (r : Registers) : List UInt16 := r.stack.toList.take r.sp

theorem length_live {r : Registers} (hdepth : r.sp ≤ stackDepth) : r.live.length = r.sp := by
  rw [live, List.length_take, Vector.length_toList]
  exact Nat.min_eq_left hdepth

theorem live_push {r r' : Registers} {addr : UInt16} (h : r.push addr = .ok r') :
    r'.live = r.live ++ [addr] := by
  unfold push at h
  split at h
  · next hsp =>
    cases h
    have hlength : r.sp < (r.stack.toList.set r.sp addr).length := by
      rw [List.length_set, Vector.length_toList]
      exact hsp
    show (r.stack.set r.sp addr hsp).toList.take (r.sp + 1) = r.stack.toList.take r.sp ++ [addr]
    rw [Vector.toList_set, List.take_succ_eq_append_getElem hlength,
      List.take_set_of_le (Nat.le_refl _), List.getElem_set_self]
  · cases h

theorem live_pop {r r' : Registers} {addr : UInt16} (hdepth : r.sp ≤ stackDepth)
    (h : r.pop = .ok (addr, r')) : r.live = r'.live ++ [addr] := by
  unfold pop at h
  split at h
  · cases h
  · next hsp =>
    cases h
    obtain ⟨k, hk⟩ : ∃ k, r.sp = k + 1 := ⟨r.sp - 1, by omega⟩
    have hslot : k < stackDepth := by omega
    have hlength : k < r.stack.toList.length := by rwa [Vector.length_toList]
    have hlast : r.stack.getD k 0 = r.stack.toList[k] := by simp [Vector.getD, hslot]
    simp only [live, hk, Nat.add_sub_cancel]
    rw [List.take_succ_eq_append_getElem hlength, hlast]

/-! ## Timers -/

/-- A timer one tick later; at zero it stays there. -/
def countDown (timer : UInt8) : UInt8 := if timer = 0 then 0 else timer - 1

theorem toNat_countDown (timer : UInt8) : (countDown timer).toNat = timer.toNat - 1 := by
  unfold countDown
  split
  · next h => simp [h]
  · next h =>
    have : timer.toNat ≠ 0 := fun h0 => h (UInt8.toNat_inj.1 h0)
    rw [UInt8.toNat_sub_of_le _ _ (UInt8.le_iff_toNat_le.2 (by simp; omega))]
    rfl

/-- The register file one timer tick later. -/
def tick (r : Registers) : Registers :=
  { r with delay := countDown r.delay, sound := countDown r.sound }

/-- A timer so many ticks later. -/
def countDownBy (timer : UInt8) (count : Nat) : UInt8 := UInt8.ofNat (timer.toNat - count)

theorem toNat_countDownBy (timer : UInt8) (count : Nat) :
    (countDownBy timer count).toNat = timer.toNat - count :=
  UInt8.toNat_ofNat_of_lt' (Nat.lt_of_le_of_lt (Nat.sub_le _ _) timer.toNat_lt)

/-- The register file so many timer ticks later. -/
def ticks (r : Registers) (count : Nat) : Registers :=
  { r with delay := countDownBy r.delay count, sound := countDownBy r.sound count }

/-- After no ticks, the register file is as it was. -/
theorem ticks_zero (r : Registers) : r.ticks 0 = r := by
  simp [ticks, countDownBy]

/-- The last of the ticks is a tick like the others. -/
theorem ticks_succ (r : Registers) (count : Nat) : r.ticks (count + 1) = (r.ticks count).tick := by
  have hlast (timer : UInt8) :
      countDownBy timer (count + 1) = countDown (countDownBy timer count) := by
    apply UInt8.toNat_inj.1
    rw [toNat_countDown, toNat_countDownBy, toNat_countDownBy, Nat.sub_add_eq]
  simp only [ticks, tick, hlast]

/-! ## The register dump -/

/-- One register of the dump, for example VA=3f. -/
def dumpV (r : Registers) (x : Fin 16) : String :=
  "V" ++ (Numeral.digit x).toString ++ "=" ++ Numeral.hex 2 (r.v.entry x).toNat

/-- A line of the dump with eight registers, from `first` on. -/
def dumpRow (r : Registers) (first : Nat) : String :=
  " ".intercalate ((List.range 8).map fun k => r.dumpV (Fin.ofNat 16 (first + k)))

/-- The register file as text: one line of special registers, two of byte registers, and one with
    the live return addresses if there are any. -/
def dump (r : Registers) : String :=
  "PC=" ++ Numeral.hex 3 r.pc.toNat ++ " I=" ++ Numeral.hex 3 r.i.toNat
    ++ " SP=" ++ Numeral.decimal r.sp ++ " DT=" ++ Numeral.hex 2 r.delay.toNat
    ++ " ST=" ++ Numeral.hex 2 r.sound.toNat ++ "\n"
    ++ r.dumpRow 0 ++ "\n" ++ r.dumpRow 8
    ++ (if r.sp = 0 then ""
        else "\nstack:" ++ String.join (r.live.map fun addr => " " ++ Numeral.hex 3 addr.toNat))

end Registers

end Chip8
