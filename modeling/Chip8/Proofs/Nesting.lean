import Chip8.Proofs.Bounds

set_option autoImplicit false

/-! # Calls and returns

The live slots of the call stack are a list of return addresses, oldest first. Seen that way an act
can do only three things (`Stacked`): a call that is completed puts the address of the next
instruction at the end of the list, a return that is completed takes the last address off it and
goes there, and everything else leaves the list alone, whatever slots are left over behind it.

So an address stays where it is for as long as the list is longer than what stands before it
(`prefix_live_after`), and the act after which the list is shorter again is the return that goes
to it (`return_of_fall`). -/

namespace Chip8

open Instruction (decode)

/-- Is the instruction a call? -/
def Instruction.isCall : Instruction → Bool
  | .call _ => true
  | _ => false

namespace Machine

/-! ## What an act does to the return addresses -/

/-- An instruction that goes straight on is no call and no return. -/
theorem not_call_or_ret_of_straight {m m' : Machine} {keys : Keypad} {i : Instruction} {flow : Flow}
    (hexec : m.execute keys i = (.ok flow, m')) (hflow : ∀ addr, flow ≠ .jump addr) :
    i.isCall = false ∧ i ≠ .ret := by
  constructor
  · cases i with
    | call addr =>
      simp only [execute] at hexec
      split at hexec <;> cases hexec
      exact absurd rfl (hflow addr)
    | _ => rfl
  · rintro rfl
    simp only [execute] at hexec
    split at hexec <;> cases hexec
    exact hflow _ rfl

/-- What an act that leads from the machine `m` to the machine `m'` does to the return addresses. -/
inductive Stacked (m : Machine) (a : Act) (m' : Machine) : Prop where
  | call (addr : UInt16) (hcall : m.completed a = some (.call addr))
    (hlive : m'.registers.live = m.registers.live ++ [m.registers.pc + 2])
  | ret (hret : m.completed a = some .ret)
    (hlive : m.registers.live = m'.registers.live ++ [m'.registers.pc])
  | still (hother : ∀ i, m.completed a = some i → i.isCall = false ∧ i ≠ .ret)
    (hlive : m'.registers.live = m.registers.live)

theorem stacked_step {m : Machine} (h : m.InBounds) (keys : Keypad) :
    Stacked m (.step keys) (m.step keys).machine := by
  have hcompleted : m.completed (.step keys) = if m.activity = .running ∧ (m.step keys).fault = none
      then some (decode m.wordAtPc) else none := rfl
  have hstep := m.stepped keys
  generalize m.step keys = s at hstep hcompleted ⊢
  cases hstep with
  | waiting hwait _ | pressed hwait _ =>
    rw [hwait, if_neg (by simp)] at hcompleted
    exact .still (by simp [hcompleted]) rfl
  | unfetched _ _ | objected _ _ _ =>
    rw [if_neg (by simp)] at hcompleted
    exact .still (by simp [hcompleted]) rfl
  | executed hrun _ _ hexec hcourse =>
    rw [if_pos ⟨hrun, rfl⟩] at hcompleted
    generalize decode m.wordAtPc = i at hcompleted hexec hcourse
    cases hcourse with
    | ret hsp =>
      have hpop : m.registers.pop = .ok (_, { m.registers with sp := m.registers.sp - 1 }) :=
        if_neg (Nat.ne_of_gt hsp)
      have hlive := Registers.live_pop h.depth_le hpop
      exact .ret hcompleted hlive
    | call addr hsp =>
      have hpush : m.registers.push (m.registers.pc + 2) = .ok _ := dif_pos hsp
      have hlive := Registers.live_push hpush
      exact .call addr hcompleted hlive
    | jump _ | jumpOffset _ | waitKey _ =>
      exact .still (by simp [hcompleted, Instruction.isCall]) rfl
    | straight hflow hsp hstack _ =>
      have hother := not_call_or_ret_of_straight hexec hflow
      refine .still (by simpa [hcompleted] using hother) ?_
      simp only [goto, Registers.live, hsp, hstack]

theorem stacked {m : Machine} (h : m.InBounds) (a : Act) : Stacked m a (m.act a) := by
  cases a with
  | load source =>
    obtain ⟨memory, hload⟩ := m.act_load_cases source
    exact .still (by simp [completed]) (by rw [hload])
  | step keys => exact stacked_step h keys
  | tick => exact .still (by simp [completed]) rfl

theorem live_of_call {m : Machine} (h : m.InBounds) {a : Act} {addr : UInt16}
    (hcall : m.completed a = some (.call addr)) :
    (m.act a).registers.live = m.registers.live ++ [m.registers.pc + 2] := by
  cases stacked h a with
  | call _ _ hlive => exact hlive
  | ret hret _ => cases hcall.symm.trans hret
  | still hother _ => cases (hother _ hcall).1

theorem InBounds.length_live {m : Machine} (h : m.InBounds) :
    m.registers.live.length = m.registers.sp :=
  Registers.length_live h.depth_le

/-! ## Depth -/

/-- The call stack is as deep as the completed calls have made it, less the completed returns. -/
theorem length_live_after {m : Machine} (h : m.InBounds) (acts : List Act) :
    (m.after acts).registers.live.length + (m.completedIn acts).count .ret
      = m.registers.live.length + (m.completedIn acts).countP Instruction.isCall := by
  induction acts generalizing m with
  | nil => rfl
  | cons a rest ih =>
    have hrest := ih (h.act a)
    suffices hact : (m.act a).registers.live.length + (m.completed a).toList.count .ret
        = m.registers.live.length + (m.completed a).toList.countP Instruction.isCall by
      rw [after_cons, completedIn, List.count_append, List.countP_append]
      omega
    cases stacked h a with
    | call addr hcall hlive => simp [hcall, hlive, Instruction.isCall]
    | ret hret hlive => simp [hret, hlive, Instruction.isCall]
    | still hother hlive =>
      cases hout : m.completed a with
      | none => simp [hlive]
      | some i =>
        obtain ⟨hcall, hret⟩ := hother i hout
        simp [hlive, hcall, hret]

/-! ## Runs that stay above a return address -/

/-- An address that an act does not take off the call stack is still there after it, and so are all
    the addresses before it. -/
theorem prefix_live_act {m : Machine} (h : m.InBounds) {a : Act} {base : List UInt16}
    (hbase : base <+: m.registers.live) (hdepth : base.length ≤ (m.act a).registers.live.length) :
    base <+: (m.act a).registers.live := by
  cases stacked h a with
  | call addr _ hlive =>
    rw [hlive]
    exact hbase.trans (List.prefix_append _ _)
  | ret _ hlive =>
    have hlater : (m.act a).registers.live <+: m.registers.live := by
      rw [hlive]
      exact List.prefix_append _ _
    exact List.prefix_of_prefix_length_le hbase hlater hdepth
  | still _ hlive => rwa [hlive]

theorem prefix_live_after {m : Machine} (h : m.InBounds) {acts : List Act} {base : List UInt16}
    (hbase : base <+: m.registers.live)
    (hdepth : ∀ before, before <+: acts → base.length ≤ (m.after before).registers.live.length) :
    base <+: (m.after acts).registers.live := by
  induction acts generalizing m with
  | nil => exact hbase
  | cons a rest ih =>
    have hact : base.length ≤ (m.act a).registers.live.length :=
      hdepth [a] (List.prefix_append [a] rest)
    refine ih (h.act a) (prefix_live_act h hbase hact) fun before hbefore => ?_
    exact hdepth (a :: before) (List.cons_prefix_cons.mpr ⟨rfl, hbefore⟩)

/-- The act that takes an address off the call stack is a return to it, and leaves the addresses
    before it. -/
theorem return_of_fall {m : Machine} (h : m.InBounds) {a : Act} {base : List UInt16} {addr : UInt16}
    (hbase : base ++ [addr] <+: m.registers.live)
    (hfall : (m.act a).registers.live.length ≤ base.length) :
    m.completed a = some .ret ∧ (m.act a).registers.pc = addr ∧
      (m.act a).registers.live = base := by
  have hlength := hbase.length_le
  rw [List.length_append, List.length_singleton] at hlength
  cases stacked h a with
  | call _ _ hlive =>
    rw [hlive, List.length_append] at hfall
    omega
  | ret hret hlive =>
    rw [hlive] at hbase hlength
    rw [List.length_append, List.length_singleton] at hlength
    -- the return takes just one address off, so nothing else stood above this one
    have hsame := hbase.eq_of_length (by simp; omega)
    obtain ⟨hlive', hpc⟩ := List.append_singleton_inj.mp hsame
    exact ⟨hret, hpc.symm, hlive'.symm⟩
  | still _ hlive =>
    rw [hlive] at hfall
    omega

/-- **Calls and returns nest.** At every point of every history, the call stack is as deep as there
    have been completed calls less completed returns. Let a cycle complete a call there, and let any
    acts follow for as long as the call stack stays deeper than it was before the call. Then the
    first act after which it no longer is completes a return, which leads to the instruction after
    the call, and the return addresses are what they were before the call. -/
theorem calls_and_returns_nest (dialect : Dialect) (seed : Seed) (earlier : List Act) :
    let m := (fresh dialect seed).after earlier
    (m.registers.sp + ((fresh dialect seed).completedIn earlier).count .ret
      = ((fresh dialect seed).completedIn earlier).countP Instruction.isCall) ∧
    ∀ keys addr, m.completed (.step keys) = some (.call addr) →
      ∀ (acts : List Act) (last : Act),
        (∀ before, before <+: acts →
          m.registers.sp < ((m.step keys).machine.after before).registers.sp) →
        (((m.step keys).machine.after acts).act last).registers.sp ≤ m.registers.sp →
        ((m.step keys).machine.after acts).completed last = some .ret ∧
        let back := ((m.step keys).machine.after acts).act last
        back.registers.pc.toNat = m.registers.pc.toNat + 2 ∧
        back.registers.sp = m.registers.sp ∧ back.registers.live = m.registers.live := by
  intro m
  have h : m.InBounds := inBounds_after_fresh dialect seed earlier
  constructor
  · have hdepth := length_live_after (fresh_inBounds dialect seed) earlier
    rw [h.length_live] at hdepth
    exact hdepth.trans (Nat.zero_add _)
  · intro keys addr hcall acts last habove hback
    have hcalled : (m.step keys).machine.InBounds := h.step keys
    have hpushed : (m.step keys).machine.registers.live
        = m.registers.live ++ [m.registers.pc + 2] := live_of_call h hcall
    -- the address that the call has pushed stays on the call stack up to the last act
    have hkept : m.registers.live ++ [m.registers.pc + 2]
        <+: ((m.step keys).machine.after acts).registers.live := by
      refine prefix_live_after hcalled (hpushed ▸ List.prefix_refl _) fun before hbefore => ?_
      rw [List.length_append, h.length_live, (hcalled.after before).length_live]
      exact habove before hbefore
    have hfall : (((m.step keys).machine.after acts).act last).registers.live.length
        ≤ m.registers.live.length := by
      rw [((hcalled.after acts).act last).length_live, h.length_live]
      exact hback
    obtain ⟨hret, hpc, hlive⟩ := return_of_fall (hcalled.after acts) hkept hfall
    refine ⟨hret, ?_, ?_, hlive⟩
    · rw [hpc]
      exact h.toNat_pc_add (by decide)
    · rw [← ((hcalled.after acts).act last).length_live, ← h.length_live, hlive]

/-- A program that calls a routine at 0x206, which does nothing but call another one at 0x20a and
    return. -/
def nestedCalls : Act :=
  .load (.ofBytes [0x22, 0x06, 0x00, 0xe0, 0x00, 0xe0, 0x22, 0x0a, 0x00, 0xee, 0x00, 0xee])

/-- The outer routine comes back to 0x202, although the inner one is called and comes back in
    between. -/
theorem nestedCalls_come_back :
    let m := (fresh {} 0).after [nestedCalls]
    let inner : List Act := [.step .idle, .tick, .step .idle]
    m.completed (.step .idle) = some (.call 0x206) ∧
    (∀ before, before <+: inner →
      m.registers.sp < ((m.step .idle).machine.after before).registers.sp) ∧
    ((m.step .idle).machine.after inner).completed (.step .idle) = some .ret ∧
    (((m.step .idle).machine.after inner).act (.step .idle)).registers.pc.toNat = 0x202 := by
  have hnest := (calls_and_returns_nest {} 0 [nestedCalls]).2
  generalize hm : (fresh {} 0).after [nestedCalls] = m at hnest ⊢
  intro m inner
  obtain ⟨hcall, hstart, hdepths, hback⟩ : m.completed (.step .idle) = some (.call 0x206) ∧
      m.registers.pc.toNat = 0x200 ∧
      (∀ k, k < 4 → m.registers.sp < ((m.step .idle).machine.after (inner.take k)).registers.sp) ∧
      (((m.step .idle).machine.after inner).act (.step .idle)).registers.sp ≤ m.registers.sp := by
    subst hm
    decide +kernel
  have habove : ∀ before, before <+: inner →
      m.registers.sp < ((m.step .idle).machine.after before).registers.sp := by
    intro before hbefore
    rw [List.prefix_iff_eq_take.mp hbefore]
    exact hdepths _ (Nat.lt_succ_of_le hbefore.length_le)
  obtain ⟨hret, hpc, -, -⟩ := hnest .idle 0x206 hcall inner (.step .idle) habove hback
  rw [hstart] at hpc
  exact ⟨hcall, habove, hret, hpc⟩

end Machine

end Chip8
