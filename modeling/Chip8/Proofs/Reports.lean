import Chip8.Fault
import Chip8.Proofs.Numerals

set_option autoImplicit false

/-! # What a fault report tells

The message of a fault names the cause with its address or pixel, the program counter and the
instruction word; the register dump has the rest. All numbers in it are as long as they need to be.
Still nothing is lost: the cause can be told by the first letter of the message, and each number
ends at the first character that is neither letter nor digit. So two faults with the same message
and the same dump are the same fault, up to slots of the call stack that hold no return address any
more. -/

namespace Chip8

open Numeral

/-! ## The cause -/

namespace FaultKind

theorem toList_message_addressOutOfRange (addr : Nat) :
    (addressOutOfRange addr).message.toList =
      "memory address 0x".toList ++ (hexDigits 4 addr ++ " out of range".toList) := by
  change ("memory address 0x" ++ hex 4 addr ++ " out of range").toList = _
  simp only [String.toList_append, toList_hex, List.append_assoc]

theorem toList_message_pixelOutOfRange (x y : Nat) :
    (pixelOutOfRange x y).message.toList =
      "pixel (".toList ++ (Nat.toDigits 10 x ++ (", ".toList ++
        (Nat.toDigits 10 y ++ ") outside the framebuffer".toList))) := by
  change ("pixel (" ++ decimal x ++ ", " ++ decimal y ++ ") outside the framebuffer").toList = _
  simp only [String.toList_append, toList_decimal, List.append_assoc]

/-- The first letter of the message, which tells the causes apart. -/
def initial : FaultKind → Char
  | .addressOutOfRange _ => 'm'
  | .stackOverflow => 'c'
  | .stackUnderflow => 'r'
  | .pixelOutOfRange _ _ => 'p'

theorem exists_toList_message (kind : FaultKind) :
    ∃ rest, kind.message.toList = kind.initial :: rest := by
  cases kind with
  | addressOutOfRange addr => simp [toList_message_addressOutOfRange, initial]
  | stackOverflow =>
    change ∃ rest, "call stack overflow".toList = 'c' :: rest
    simp
  | stackUnderflow =>
    change ∃ rest, "return with empty call stack".toList = 'r' :: rest
    simp
  | pixelOutOfRange x y => simp [toList_message_pixelOutOfRange, initial]

theorem message_append_inj {kind kind' : FaultKind} {rest rest' : List Char}
    (hsame : kind.message.toList ++ rest = kind'.message.toList ++ rest') :
    kind = kind' ∧ rest = rest' := by
  have hinitial : kind.initial = kind'.initial := by
    obtain ⟨text, htext⟩ := kind.exists_toList_message
    obtain ⟨text', htext'⟩ := kind'.exists_toList_message
    rw [htext, htext', List.cons_append, List.cons_append] at hsame
    exact (List.cons.inj hsame).1
  -- messages of different kinds begin with different letters, so only pairs of one kind remain
  cases kind <;> cases kind' <;> try cases hinitial
  case addressOutOfRange.addressOutOfRange addr addr' =>
    simp only [toList_message_addressOutOfRange, List.append_assoc,
      List.append_cancel_left_eq] at hsame
    obtain ⟨rfl, hrest⟩ := hexDigits_append_inj (by simp [Apart]) (by simp [Apart]) hsame
    exact ⟨rfl, List.append_cancel_left hrest⟩
  case stackOverflow.stackOverflow | stackUnderflow.stackUnderflow =>
    exact ⟨rfl, List.append_cancel_left hsame⟩
  case pixelOutOfRange.pixelOutOfRange x y x' y' =>
    simp only [toList_message_pixelOutOfRange, List.append_assoc,
      List.append_cancel_left_eq] at hsame
    obtain ⟨rfl, hy⟩ := toDigits_append_inj (by simp [Apart]) (by simp [Apart]) (by decide)
      (by decide) hsame
    obtain ⟨rfl, hrest⟩ := toDigits_append_inj (by simp [Apart]) (by simp [Apart]) (by decide)
      (by decide) (List.append_cancel_left hy)
    exact ⟨rfl, List.append_cancel_left hrest⟩

end FaultKind

/-! ## The message -/

namespace Fault

theorem toList_origin (word : UInt16) :
    (origin (some word)).toList = "(opcode 0x".toList ++ (hexDigits 4 word.toNat ++ [')']) := by
  change ("(opcode 0x" ++ hex 4 word.toNat ++ ")").toList = _
  simp only [String.toList_append, toList_hex, List.append_assoc]
  simp

theorem origin_inj {opcode opcode' : Option UInt16}
    (hsame : (origin opcode).toList = (origin opcode').toList) : opcode = opcode' := by
  have hfetch : (origin none).toList = "(instruction fetch)".toList := rfl
  cases opcode <;> cases opcode'
  case none.none => rfl
  case some.some word word' =>
    rw [toList_origin, toList_origin] at hsame
    obtain ⟨hword, -⟩ := hexDigits_append_inj (apart_cons (by decide)) (apart_cons (by decide))
      (List.append_cancel_left hsame)
    rw [UInt16.toNat_inj.mp hword]
  all_goals simp [toList_origin, hfetch] at hsame

theorem toList_message (f : Fault) :
    f.message.toList = f.kind.message.toList ++ (" at pc 0x".toList ++
      (hexDigits 3 f.registers.pc.toNat ++ ' ' :: (origin f.opcode).toList)) := by
  simp [message, toList_hex]

/-- The message tells the cause, the program counter and the instruction word. -/
theorem message_inj {f g : Fault} (hsame : f.message = g.message) :
    f.kind = g.kind ∧ f.registers.pc = g.registers.pc ∧ f.opcode = g.opcode := by
  have htext := congrArg String.toList hsame
  rw [toList_message, toList_message] at htext
  obtain ⟨hkind, hbehind⟩ := FaultKind.message_append_inj htext
  obtain ⟨hpc, horigin⟩ := hexDigits_append_inj (apart_cons (by decide)) (apart_cons (by decide))
    (List.append_cancel_left hbehind)
  exact ⟨hkind, UInt16.toNat_inj.mp hpc, origin_inj (List.cons.inj horigin).2⟩

end Fault

/-! ## The register dump -/

namespace Registers

/-- The special registers of the dump. -/
def specialFields (r : Registers) : List (String × List Char) :=
  [("\nPC=", hexDigits 3 r.pc.toNat), (" I=", hexDigits 3 r.i.toNat),
    (" SP=", Nat.toDigits 10 r.sp), (" DT=", hexDigits 2 r.delay.toNat),
    (" ST=", hexDigits 2 r.sound.toNat)]

/-- What stands in front of a register in a row of the dump. -/
def rowLabel (first k : Nat) : String :=
  (if k = 0 then "\n" else " ") ++ "V" ++ (digit (Fin.ofNat 16 (first + k))).toString ++ "="

/-- A row of the dump with eight registers. -/
def rowFields (r : Registers) (first : Nat) : List (String × List Char) :=
  (List.range 8).map fun k =>
    (rowLabel first k, hexDigits 2 (r.v.entry (Fin.ofNat 16 (first + k))).toNat)

/-- The live return addresses of the dump. -/
def stackFields (r : Registers) : List (String × List Char) :=
  if r.sp = 0 then []
  else ("\nstack:", []) :: r.live.map fun addr => (" ", hexDigits 3 addr.toNat)

theorem toList_dumpRow (r : Registers) (first : Nat) :
    '\n' :: (r.dumpRow first).toList = fieldsText (r.rowFields first) := by
  simp [dumpRow, dumpV, rowFields, rowLabel, fieldsText, List.range, List.range.loop, toList_hex]

theorem toList_dump (r : Registers) :
    '\n' :: r.dump.toList =
      fieldsText (r.specialFields ++ (r.rowFields 0 ++ r.rowFields 8)) ++
        fieldsText r.stackFields := by
  have hstack : (if r.sp = 0 then ""
      else "\nstack:" ++ String.join (r.live.map fun addr => " " ++ hex 3 addr.toNat)).toList =
      fieldsText r.stackFields := by
    unfold stackFields
    split_ifs
    · rfl
    · simp [fieldsText, List.flatMap_map, String.toList_join, toList_hex]
  unfold dump
  simp only [String.toList_append, hstack, fieldsText_append, ← toList_dumpRow]
  simp [fieldsText, specialFields, toList_hex, toList_decimal]

theorem legible_specialFields (r : Registers) : Legible r.specialFields := by
  simp [Legible, specialFields, plain_hexDigits, plain_toDigits]

theorem legible_rowFields (r : Registers) (first : Nat) : Legible (r.rowFields first) := by
  intro field hfield
  obtain ⟨k, -, rfl⟩ := List.mem_map.mp hfield
  refine ⟨?_, plain_hexDigits _ _⟩
  unfold rowLabel
  split_ifs <;> simp

theorem legible_stackFields (r : Registers) : Legible r.stackFields := by
  unfold stackFields
  split_ifs
  · exact nofun
  · intro field hfield
    rcases List.mem_cons.mp hfield with rfl | hfield
    · exact ⟨by simp, nofun⟩
    · obtain ⟨addr, -, rfl⟩ := List.mem_map.mp hfield
      exact ⟨by simp, plain_hexDigits _ _⟩

/-- Are two register files the same, but for slots of the call stack that hold no return address? -/
structure Alike (r r' : Registers) : Prop where
  v : r.v = r'.v
  i : r.i = r'.i
  pc : r.pc = r'.pc
  sp : r.sp = r'.sp
  stack (slot : Fin stackDepth) (hslot : slot.val < r.sp) : r.stack[slot] = r'.stack[slot]
  delay : r.delay = r'.delay
  sound : r.sound = r'.sound

variable {r r' : Registers}

theorem live_eq_iff (hsp : r.sp = r'.sp) :
    r.live = r'.live ↔
      ∀ slot : Fin stackDepth, slot.val < r.sp → r.stack[slot] = r'.stack[slot] := by
  constructor
  · intro hlive slot hslot
    have hget := congrArg (·[slot.val]?) hlive
    simpa [live, List.getElem?_take, hslot, ← hsp] using hget
  · intro hstack
    refine List.ext_getElem? fun k => ?_
    simp only [live, List.getElem?_take, ← hsp]
    split_ifs with hk
    · by_cases hslot : k < stackDepth
      · simpa [hslot] using hstack ⟨k, hslot⟩ hk
      · simp [Nat.not_lt.mp hslot]
    · rfl

/-- A slot that holds no return address is not shown. -/
theorem Alike.dump_eq (h : r.Alike r') : r.dump = r'.dump := by
  have hlive := (live_eq_iff h.sp).mpr h.stack
  unfold dump dumpRow dumpV
  rw [h.v, h.i, h.pc, h.sp, h.delay, h.sound, hlive]

theorem v_eq_of_rowFields (hlow : r.rowFields 0 = r'.rowFields 0)
    (hhigh : r.rowFields 8 = r'.rowFields 8) : r.v = r'.v := by
  have hrow {first k : Nat} (hfields : r.rowFields first = r'.rowFields first) (hk : k < 8) :
      r.v.entry (Fin.ofNat 16 (first + k)) = r'.v.entry (Fin.ofNat 16 (first + k)) := by
    have hfield := List.map_inj_left.mp hfields k (List.mem_range.mpr hk)
    exact UInt8.toNat_inj.mp (hexDigits_inj.mp (Prod.mk.inj hfield).2)
  have hentry : ∀ x : Fin 16, r.v.entry x = r'.v.entry x := by
    intro x
    by_cases hx : x.val < 8
    · have hv := hrow hlow hx
      simpa using hv
    · have hv := hrow hhigh (k := x.val - 8) (by omega)
      rwa [Nat.add_sub_cancel' (Nat.not_lt.mp hx), Fin.ofNat_val_eq_self] at hv
  exact Vector.ext fun k hk => hentry ⟨k, hk⟩

theorem live_eq_of_stackFields (hdepth : r.sp ≤ stackDepth) (hdepth' : r'.sp ≤ stackDepth)
    (hsp : r.sp = r'.sp) (hsame : fieldsText r.stackFields = fieldsText r'.stackFields) :
    r.live = r'.live := by
  have hlength : r.live.length = r'.live.length := by
    rw [length_live hdepth, length_live hdepth', hsp]
  by_cases hzero : r.sp = 0
  · have hnil : r.live.length = 0 := (length_live hdepth).trans hzero
    rw [List.eq_nil_of_length_eq_zero hnil, List.eq_nil_of_length_eq_zero (hlength.symm.trans hnil)]
  · have hlabels : r.stackFields.map Prod.fst = r'.stackFields.map Prod.fst := by
      simp [stackFields, hzero, ← hsp, Function.comp_def, List.map_const', hlength]
    have hfields := (fieldsText_inj hlabels r.legible_stackFields r'.legible_stackFields apart_nil
      apart_nil (by simpa using hsame)).1
    simp only [stackFields, hzero, ← hsp, if_false, List.cons.injEq, true_and] at hfields
    refine (List.map_inj_right fun a b hab => ?_).mp hfields
    exact UInt16.toNat_inj.mp (hexDigits_inj.mp (Prod.mk.inj hab).2)

theorem map_fst_rowFields (r : Registers) (first : Nat) :
    (r.rowFields first).map Prod.fst = (List.range 8).map (rowLabel first) :=
  List.map_map

/-- The dump tells the registers, the timers and the live return addresses. -/
theorem alike_of_dump_eq (hdepth : r.sp ≤ stackDepth) (hdepth' : r'.sp ≤ stackDepth)
    (hsame : r.dump = r'.dump) : r.Alike r' := by
  have hlegible (r : Registers) : Legible (r.specialFields ++ (r.rowFields 0 ++ r.rowFields 8)) :=
    r.legible_specialFields.append ((r.legible_rowFields 0).append (r.legible_rowFields 8))
  have hapart (r : Registers) : Apart (fieldsText r.stackFields) := by
    simpa using apart_fieldsText r.legible_stackFields apart_nil
  -- the first line has no line break in front; with one it is a labelled field like the others
  have htext := congrArg ('\n' :: String.toList ·) hsame
  simp only [toList_dump] at htext
  obtain ⟨hfields, hstack⟩ := fieldsText_inj
    (by simp only [List.map_append, map_fst_rowFields]; rfl) (hlegible r) (hlegible r') (hapart r)
    (hapart r') htext
  obtain ⟨hspecial, hrows⟩ := List.append_inj hfields rfl
  obtain ⟨hlow, hhigh⟩ := List.append_inj hrows (by simp only [rowFields, List.length_map])
  simp only [specialFields, List.cons.injEq, Prod.mk.injEq, true_and, and_true, hexDigits_inj,
    UInt16.toNat_inj, UInt8.toNat_inj] at hspecial
  obtain ⟨hpc, hi, hdigits, hdelay, hsound⟩ := hspecial
  have hsp : r.sp = r'.sp := (toDigits_inj (by decide) (by decide)).mp hdigits
  have hlive := live_eq_of_stackFields hdepth hdepth' hsp hstack
  exact ⟨v_eq_of_rowFields hlow hhigh, hi, hpc, hsp, (live_eq_iff hsp).mp hlive, hdelay, hsound⟩

end Registers

/-! ## The report -/

namespace Fault

/-- **A report determines the fault.** Two faults whose call stacks are not overfull have the same
    message and the same register dump only if they have the same cause, down to its address or
    pixel, the same instruction word or none, and the same registers up to slots of the call stack
    that hold no return address; and then they have. -/
theorem report_determines_fault {f g : Fault} (hf : f.registers.sp ≤ 16)
    (hg : g.registers.sp ≤ 16) :
    f.message = g.message ∧ f.registers.dump = g.registers.dump ↔
      f.kind = g.kind ∧ f.opcode = g.opcode ∧ f.registers.Alike g.registers := by
  constructor
  · rintro ⟨hmessage, hdump⟩
    obtain ⟨hkind, -, hopcode⟩ := message_inj hmessage
    exact ⟨hkind, hopcode, Registers.alike_of_dump_eq hf hg hdump⟩
  · rintro ⟨hkind, hopcode, halike⟩
    refine ⟨?_, halike.dump_eq⟩
    unfold message
    rw [hkind, hopcode, halike.pc]

/-- Two faults that differ only in a slot above the call stack have the same report, and another
    address that starts with the same digits is told apart. -/
theorem staleSlot_unreported_digits_told_apart :
    let r : Registers := { sp := 1, stack := (Vector.replicate 16 0).set 0 0x202 }
    let r' : Registers := { r with stack := r.stack.set 1 0x345 }
    let f : Fault := { kind := .addressOutOfRange 0x1000, opcode := some 0xd125, registers := r }
    let g : Fault := { f with kind := .addressOutOfRange 0x10005 }
    (r.sp ≤ 16 ∧ r'.sp ≤ 16) ∧
    (f.message = { f with registers := r' : Fault }.message ∧ r.dump = r'.dump) ∧
    ¬ (f.message = g.message ∧ r.dump = r.dump) := by
  intro r r' f g
  have hdepth : r.sp ≤ 16 := by decide
  have hdepth' : r'.sp ≤ 16 := by decide
  have halike : r.Alike r' := ⟨rfl, rfl, rfl, rfl, by decide, rfl, rfl⟩
  refine ⟨⟨hdepth, hdepth'⟩, ?_, fun hsame => ?_⟩
  · exact (report_determines_fault (f := f) (g := { f with registers := r' }) hdepth hdepth').mpr
      ⟨rfl, rfl, halike⟩
  · have hkind := ((report_determines_fault (f := f) (g := g) hdepth hdepth).mp hsame).1
    exact absurd hkind (by decide)

end Fault

end Chip8
