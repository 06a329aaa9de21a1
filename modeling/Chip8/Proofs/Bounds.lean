import Chip8.Proofs.History

set_option autoImplicit false

/-! # Bounds that every machine keeps

No history leads a machine out of bounds. The program counter may lie beyond memory, by different
amounts after a skip, after a jump with an offset and after a return, but never so far that the
additions to it or to a return address wrap around (`inBounds_after_fresh`). What carries this is
that an instruction is only executed where its word could be fetched, so that it and with it every
return address lie within memory or right behind it. -/

namespace Chip8

open Instruction (decode)

/-! ## Addresses in instructions -/

/-- The address that an instruction names, if it names one. -/
def Instruction.address? : Instruction → Option UInt16
  | .machineCall addr | .jump addr | .call addr | .loadIndex addr | .jumpOffset addr => some addr
  | _ => none

/-- Addresses in words have twelve bits. -/
theorem Instruction.address_decode_lt {w : Word} {addr : UInt16}
    (h : (decode w).address? = some addr) : addr.toNat < Memory.size := by
  suffices haddr : addr = w.nnn from haddr ▸ w.nnn_lt
  unfold decode at h
  split at h
  case h_1 =>
    by_cases hclear : w = 0x00e0
    · simp [hclear, address?] at h
    · by_cases hret : w = 0x00ee <;> simp_all [address?]
  case h_6 | h_10 => by_cases hn : w.n = 0 <;> simp [hn, address?] at h
  case h_9 => unfold decodeArithmetic at h; split at h <;> simp [address?] at h
  case h_15 => unfold decodeKey at h; split at h <;> simp [address?] at h
  case h_16 => unfold decodeMisc at h; split at h <;> simp [address?] at h
  all_goals simp_all [address?]

namespace Machine

/-! ## The bounds -/

/-- A machine within the bounds. -/
structure InBounds (m : Machine) : Prop where
  /-- The call stack is no deeper than it can be. -/
  depth_le : m.registers.sp ≤ stackDepth
  /-- The slots of the call stack, live or not, hold addresses within memory or right behind it. -/
  slot_le : ∀ k (hk : k < stackDepth), m.registers.stack[k].toNat ≤ Memory.size
  /-- No address is further away than the farthest jump with an offset. -/
  pc_le : m.registers.pc.toNat ≤ 0x10fe
  /-- A machine that waits for a key has got there from an instruction within memory. -/
  pc_le_of_waiting : m.activity ≠ .running → m.registers.pc.toNat ≤ Memory.size

theorem fresh_inBounds (dialect : Dialect) (seed : Seed) : (fresh dialect seed).InBounds where
  depth_le := Nat.zero_le _
  slot_le k hk := by simp [fresh, Registers.reset]
  pc_le := by simp [fresh, Registers.reset, programStart]
  pc_le_of_waiting h := absurd rfl h

theorem toNat_add_offset {addr : UInt16} (haddr : addr.toNat < Memory.size) (offset : UInt8) :
    (addr + offset.toUInt16).toNat = addr.toNat + offset.toNat := by
  have hoffset := offset.toNat_lt
  have hsize : addr.toNat < 4096 := haddr
  rw [UInt16.toNat_add, UInt8.toNat_toUInt16]
  omega

/-- A program counter that is no further away than the farthest jump has room for the longest
    move. -/
theorem toNat_pc_add {pc k : UInt16} (hpc : pc.toNat ≤ 0x10fe) (hk : k.toNat ≤ 4) :
    (pc + k).toNat = pc.toNat + k.toNat := by
  rw [UInt16.toNat_add]
  omega

theorem InBounds.toNat_pc_add {m : Machine} (h : m.InBounds) {k : UInt16} (hk : k.toNat ≤ 4) :
    (m.registers.pc + k).toNat = m.registers.pc.toNat + k.toNat :=
  Machine.toNat_pc_add h.pc_le hk

/-- A return address that is taken off the call stack comes out of one of its slots. -/
theorem exists_slot_of_pop {r : Registers} (hdepth : r.sp ≤ stackDepth) (hsp : 0 < r.sp) :
    ∃ hk : r.sp - 1 < stackDepth, r.stack.getD (r.sp - 1) 0 = r.stack[r.sp - 1] := by
  have hk : r.sp - 1 < stackDepth := by omega
  exact ⟨hk, by simp [Vector.getD, hk]⟩

/-! ## Every act keeps them -/

/-- A machine is within the bounds at an address if its call stack is, the address is not too far
    away, and the machine is running or the address lies within memory or right behind it. -/
theorem inBounds_goto {m : Machine} {addr : UInt16} (hdepth : m.registers.sp ≤ stackDepth)
    (hslot : ∀ k (hk : k < stackDepth), m.registers.stack[k].toNat ≤ Memory.size)
    (haddr : addr.toNat ≤ 0x10fe) (hstate : m.activity = .running ∨ addr.toNat ≤ Memory.size) :
    (m.goto addr).InBounds where
  depth_le := hdepth
  slot_le := hslot
  pc_le := haddr
  pc_le_of_waiting hwait := hstate.resolve_left hwait

/-- Where a successful instruction leads is within the bounds again. -/
theorem InBounds.course {m m' : Machine} {flow : Flow} (h : m.InBounds)
    (hrun : m.activity = .running) (hfetch : Memory.overrun m.registers.pc 2 = none)
    (hcourse : Course m (decode m.wordAtPc) flow m') :
    (m'.goto (flow.target m.registers.pc)).InBounds := by
  have hpc := Memory.overrun_eq_none_iff.mp hfetch
  have hnext : (m.registers.pc + 2).toNat = m.registers.pc.toNat + 2 := h.toNat_pc_add (by decide)
  have hskip : (m.registers.pc + 4).toNat = m.registers.pc.toNat + 4 := h.toNat_pc_add (by decide)
  have hsize : Memory.size = 4096 := rfl
  generalize hi : decode m.wordAtPc = i at hcourse
  cases hcourse with
  | ret hsp =>
    -- The address comes out of a slot, so it is as near as every slot is.
    obtain ⟨hk, hslot⟩ := exists_slot_of_pop h.depth_le hsp
    have haddr := h.slot_le _ hk
    rw [← hslot] at haddr
    refine inBounds_goto (Nat.le_trans (Nat.sub_le _ _) h.depth_le) h.slot_le ?_ (.inl hrun)
    exact Nat.le_trans haddr (by decide)
  | call addr hsp =>
    have haddr : addr.toNat < Memory.size :=
      Instruction.address_decode_lt ((congrArg _ hi).trans rfl)
    refine inBounds_goto hsp (fun k hk => ?_) (Nat.le_trans (Nat.le_of_lt haddr) (by decide))
      (.inl hrun)
    simp only [Vector.getElem_set]
    split
    · rw [hnext]
      exact hpc
    · exact h.slot_le k hk
  | jump addr =>
    have haddr : addr.toNat < Memory.size :=
      Instruction.address_decode_lt ((congrArg _ hi).trans rfl)
    exact inBounds_goto h.depth_le h.slot_le (Nat.le_trans (Nat.le_of_lt haddr) (by decide))
      (.inl hrun)
  | jumpOffset addr =>
    have haddr : addr.toNat < Memory.size :=
      Instruction.address_decode_lt ((congrArg _ hi).trans rfl)
    have hoffset := (m.v 0).toNat_lt
    refine inBounds_goto h.depth_le h.slot_le ?_ (.inl hrun)
    rw [Flow.target, toNat_add_offset haddr]
    omega
  | waitKey x =>
    -- The only case in which the machine is not running afterwards.
    have haddr : (m.registers.pc + 2).toNat ≤ Memory.size := by rw [hnext]; exact hpc
    exact inBounds_goto h.depth_le h.slot_le (Nat.le_trans haddr (by decide)) (.inr haddr)
  | straight hflow hsp hstack hactivity =>
    refine inBounds_goto (hsp ▸ h.depth_le) (hstack ▸ h.slot_le) ?_ (.inl (hactivity.trans hrun))
    cases flow with
    | next => rw [Flow.target, hnext]; omega
    | skip => rw [Flow.target, hskip]; omega
    | jump addr => exact absurd rfl (hflow addr)

theorem InBounds.step {m : Machine} (h : m.InBounds) (keys : Keypad) :
    (m.step keys).machine.InBounds := by
  have hstep := m.stepped keys
  generalize m.step keys = s at hstep ⊢
  cases hstep with
  | waiting _ _ => exact h
  | pressed _ _ => exact ⟨h.depth_le, h.slot_le, h.pc_le, fun hwait => absurd rfl hwait⟩
  | unfetched _ _ => exact h
  | objected _ _ _ => exact h
  | executed hrun hfetch _ _ hcourse => exact h.course hrun hfetch hcourse

theorem InBounds.act {m : Machine} (h : m.InBounds) (a : Act) : (m.act a).InBounds := by
  cases a with
  | load source =>
    obtain ⟨memory, hload⟩ := m.act_load_cases source
    rw [hload]
    exact ⟨h.depth_le, h.slot_le, h.pc_le, h.pc_le_of_waiting⟩
  | step keys => exact h.step keys
  | tick => exact ⟨h.depth_le, h.slot_le, h.pc_le, h.pc_le_of_waiting⟩

theorem InBounds.after {m : Machine} (h : m.InBounds) (acts : List Act) : (m.after acts).InBounds :=
  after_induction (fun _ a h => h.act a) h acts

theorem inBounds_after_fresh (dialect : Dialect) (seed : Seed) (acts : List Act) :
    ((fresh dialect seed).after acts).InBounds :=
  (fresh_inBounds dialect seed).after acts

/-! ## What follows for the cycle -/

theorem objection_ne_pixel (r : Registers) (i : Instruction) (x y : Nat) :
    objection r i ≠ some (.pixelOutOfRange x y) := by
  unfold objection Memory.overrun
  split <;> (try split) <;> simp

theorem fault_ne_pixel {m : Machine} {keys : Keypad} {fault : Fault}
    (h : (m.step keys).fault = some fault) (x y : Nat) : fault.kind ≠ .pixelOutOfRange x y := by
  have hstep := m.stepped keys
  generalize m.step keys = s at hstep h
  cases hstep with
  | waiting _ _ => cases h
  | pressed _ _ => cases h
  | unfetched _ hfetch =>
    cases h
    rintro rfl
    unfold Memory.overrun at hfetch
    split at hfetch <;> cases hfetch
  | objected _ _ hobjection =>
    cases h
    rintro rfl
    exact objection_ne_pixel _ _ x y hobjection
  | executed _ _ _ _ _ => cases h

/-- **Every history stays within bounds.** Whatever is loaded, stepped and ticked after a reset, the
    call stack, the return addresses, the program counter and the awaited register keep to their
    limits, and memory and screen keep their sizes. So none of the additions to the program counter,
    to a return address and to the target of a jump with an offset wraps around, the call stack is
    only touched where it has a slot and the screen where it has a byte, and no cycle is at fault
    because of a pixel. -/
theorem bounds_of_history (dialect : Dialect) (seed : Seed) (acts : List Act) :
    let m := (fresh dialect seed).after acts
    (m.registers.sp ≤ 16 ∧ (∀ k (hk : k < 16), m.registers.stack[k].toNat ≤ 0x1000) ∧
      m.registers.pc.toNat ≤ 0x10fe ∧
      (∀ x, m.activity = .awaitingKey x → m.registers.pc.toNat ≤ 0x1000 ∧ x.val < 16) ∧
      m.memory.toList.length = 4096 ∧ m.screen.toBytes.length = 256) ∧
    ((m.registers.pc + 2).toNat = m.registers.pc.toNat + 2 ∧
      (m.registers.pc + 4).toNat = m.registers.pc.toNat + 4 ∧
      (∀ addr, decode m.wordAtPc = .jumpOffset addr →
        (addr + (m.v 0).toUInt16).toNat = addr.toNat + (m.v 0).toNat)) ∧
    ((∀ addr r, m.registers.push addr = .ok r → m.registers.sp < 16) ∧
      (∀ addr r, m.registers.pop = .ok (addr, r) →
        ∃ hk : m.registers.sp - 1 < 16, addr = m.registers.stack[m.registers.sp - 1]) ∧
      (∀ x y, Screen.cellIndex x y < 256)) ∧
    ∀ keys fault, (m.step keys).fault = some fault → ∀ x y, fault.kind ≠ .pixelOutOfRange x y := by
  intro m
  have h : m.InBounds := inBounds_after_fresh dialect seed acts
  refine ⟨⟨h.depth_le, h.slot_le, h.pc_le, fun x hwait => ⟨?_, x.isLt⟩, ?_, ?_⟩,
    ⟨h.toNat_pc_add (by decide), h.toNat_pc_add (by decide), fun addr hi => ?_⟩,
    ⟨fun addr r hpush => ?_, fun addr r hpop => ?_, Screen.cellIndex_lt⟩,
    fun keys fault hfault => fault_ne_pixel hfault⟩
  · exact h.pc_le_of_waiting (by simp [hwait])
  · simp [Memory.toList]
  · simp [Screen.toBytes]
  · exact toNat_add_offset (Instruction.address_decode_lt ((congrArg _ hi).trans rfl)) _
  · unfold Registers.push at hpush
    split at hpush
    · assumption
    · cases hpush
  · unfold Registers.pop at hpop
    split at hpop
    · cases hpop
    · next hsp =>
      cases hpop
      exact exists_slot_of_pop h.depth_le (Nat.pos_of_ne_zero hsp)

end Machine

end Chip8
