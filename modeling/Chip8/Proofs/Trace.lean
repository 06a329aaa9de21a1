import Chip8.Machine.Run
import Chip8.Proofs.Faults
import Chip8.Proofs.Patterns

set_option autoImplicit false

/-! # The trace as a history

Every word that a machine fetches is logged before it is executed, with the address it was fetched
from, whatever comes of it; what is skipped is remarked upon right after it. Nothing else that is
done with a machine is logged. So the log of a history can be written down from its fetches alone
(`logged_trace`), and each fetch is a completed instruction or a fault with an instruction word
(`length_fetches`). A reader who asked for less sees a part of the same log, of the same machine
(`logged_eq_filter`, `run_eq`). -/

namespace Chip8

open Instruction (decode)
open Numeral (hex)

/-! ## What a fetch is logged as -/

/-- A word with the address that it was fetched from. -/
structure Fetch where
  pc : UInt16
  word : Word
  deriving DecidableEq

namespace Fetch

/-- Is the word a call of a routine in the host's machine code? -/
def CallsMachineCode (f : Fetch) : Prop :=
  f.word.toNat < 0x1000 ∧ f.word ≠ 0x00e0 ∧ f.word ≠ 0x00ee

instance (f : Fetch) : Decidable f.CallsMachineCode := inferInstanceAs (Decidable (_ ∧ _))

/-- What is logged about a fetched word. -/
def records (f : Fetch) : List Record :=
  .executing f.pc f.word ::
    if f.CallsMachineCode then [.machineCall f.word]
    else if f.word.Assigned then [] else [.unassigned f.word]

/-- What is logged about a fetched word, as lines of text. -/
def lines (f : Fetch) : List String :=
  ("TRACE " ++ (hex 3 f.pc.toNat ++ ": " ++ hex 4 f.word.toNat ++ " " ++ (decode f.word).mnemonic))
    :: if f.CallsMachineCode then
        ["DEBUG " ++ ("ignoring machine code call to 0x" ++ hex 3 f.word.toNat)]
      else if f.word.Assigned then []
      else ["DEBUG " ++ ("no such instruction 0x" ++ hex 4 f.word.toNat ++ ", skipping")]

theorem map_line_records (f : Fetch) : f.records.map Record.line = f.lines := by
  unfold records lines
  split_ifs <;> rfl

theorem callsMachineCode_of_decode {f : Fetch} {addr : UInt16}
    (h : decode f.word = .machineCall addr) : f.CallsMachineCode := by
  have hword := Instruction.encode_decode f.word
  rw [h] at hword
  refine ⟨?_, fun hclear => ?_, fun hret => ?_⟩
  · rw [← hword, Instruction.encode, Word.toNat_ofAddress]
    exact Nat.lt_of_lt_of_eq (Nat.add_lt_add_left (Nat.mod_lt _ (by decide)) _) rfl
  · rw [hclear] at h
    cases h
  · rw [hret] at h
    cases h

theorem decode_of_callsMachineCode {f : Fetch} (h : f.CallsMachineCode) :
    decode f.word = .machineCall f.word := by
  obtain ⟨hlt, hclear, hret⟩ := h
  have haddr : f.word.nnn = f.word := by
    apply UInt16.toNat_inj.1
    rw [Word.nnn, UInt16.toNat_ofNat', Nat.mod_eq_of_lt hlt, Nat.mod_eq_of_lt f.word.toNat_lt]
  rw [Instruction.decode_machineCall (Word.family_eq (Nat.div_eq_of_lt hlt)) hclear hret, haddr]

/-- The remarks upon an instruction can be told from its word. -/
theorem records_eq (f : Fetch) :
    f.records = .executing f.pc f.word :: Machine.remarks (decode f.word) := by
  unfold records
  congr 1
  split_ifs with hcall hassigned
  · rw [decode_of_callsMachineCode hcall]
    rfl
  · cases hi : decode f.word
    case machineCall addr => exact absurd (callsMachineCode_of_decode hi) hcall
    case unknown word =>
      have hword := Instruction.encode_decode f.word
      rw [hi, Instruction.encode] at hword
      exact absurd (hword ▸ hi) (Word.assigned_iff_decode_ne.mp hassigned)
    all_goals rfl
  · rw [Instruction.decode_of_not_assigned hassigned]
    rfl

end Fetch

namespace Machine

/-! ## What acts fetch and log -/

/-- What an act fetches: a cycle of a running machine fetches the word at the program counter,
    unless that word reaches beyond memory. -/
def fetch? (m : Machine) : Act → Option Fetch
  | .step _ =>
    if m.activity = .running ∧ m.registers.pc.toNat + 2 ≤ Memory.size then
      some { pc := m.registers.pc, word := m.wordAtPc }
    else none
  | .load _ | .tick => none

/-- What the acts of a history fetch, first one first. -/
def fetches (m : Machine) : List Act → List Fetch
  | [] => []
  | a :: rest => (m.fetch? a).toList ++ (m.act a).fetches rest

/-- What an act logs for a reader who asked for `threshold`. -/
def logOf (m : Machine) (threshold : Option Level) : Act → List Record
  | .step keys => (m.step keys).log.filter (·.visibleAt threshold)
  | .load _ | .tick => []

/-- What the acts of a history log for a reader who asked for `threshold`, first record first. -/
def logged (m : Machine) (threshold : Option Level) : List Act → List Record
  | [] => []
  | a :: rest => m.logOf threshold a ++ (m.act a).logged threshold rest

theorem log_step (m : Machine) (keys : Keypad) :
    (m.step keys).log = (m.fetch? (.step keys)).toList.flatMap Fetch.records := by
  have hstep := m.stepped keys
  have hlog : m.logAtPc = Fetch.records { pc := m.registers.pc, word := m.wordAtPc } := by
    rw [Fetch.records_eq]
    rfl
  generalize m.step keys = s at hstep ⊢
  unfold fetch?
  cases hstep with
  | waiting hwait _ | pressed hwait _ => simp [hwait]
  | unfetched _ hfetch =>
    have hbeyond := (Memory.overrun_eq_some_iff.mp hfetch).1
    rw [if_neg fun h => absurd h.2 (Nat.not_le.mpr hbeyond)]
    rfl
  | objected hrun hfetch _ | executed hrun hfetch _ _ _ =>
    rw [if_pos ⟨hrun, Memory.overrun_eq_none_iff.mp hfetch⟩]
    simpa using hlog

/-- An act logs what it fetches, and nothing else. -/
theorem logOf_eq (m : Machine) (threshold : Option Level) (a : Act) :
    m.logOf threshold a =
      ((m.fetch? a).toList.flatMap Fetch.records).filter (·.visibleAt threshold) := by
  cases a with
  | step keys => rw [logOf, log_step]
  | load source | tick => rfl

/-- What is logged follows from the fetches. -/
theorem logged_eq_filter (m : Machine) (threshold : Option Level) (acts : List Act) :
    m.logged threshold acts =
      ((m.fetches acts).flatMap Fetch.records).filter (·.visibleAt threshold) := by
  induction acts generalizing m with
  | nil => rfl
  | cons a rest ih =>
    rw [logged, fetches, logOf_eq, ih, List.flatMap_append, List.filter_append]

theorem visibleAt_trace (r : Record) : r.visibleAt (some .trace) = true := by
  cases r <;> rfl

/-- A reader who asked for everything sees all that is logged. -/
theorem logged_trace (m : Machine) (acts : List Act) :
    m.logged (some .trace) acts = (m.fetches acts).flatMap Fetch.records := by
  rw [logged_eq_filter, List.filter_eq_self]
  exact fun r _ => visibleAt_trace r

/-! ## How many records there are -/

/-- Did a cycle come back with a fault that names an instruction word? -/
def Answer.namesWord : Answer → Bool
  | .cycled (some fault) => fault.opcode.isSome
  | .cycled none | .loaded _ => false

/-- A fetched word is executed or at fault. -/
theorem length_fetch? (m : Machine) (a : Act) :
    (m.fetch? a).toList.length =
      (m.completed a).toList.length + (m.answer a).toList.countP Answer.namesWord := by
  cases a with
  | tick => rfl
  | load source =>
    rw [answer]
    cases m.loadOutcome source <;> rfl
  | step keys =>
    have hstep := m.stepped keys
    simp only [fetch?, completed, answer]
    generalize m.step keys = s at hstep ⊢
    cases hstep with
    | waiting hwait _ | pressed hwait _ => simp [hwait, Answer.namesWord]
    | unfetched _ hfetch =>
      have hbeyond := (Memory.overrun_eq_some_iff.mp hfetch).1
      rw [if_neg fun h => absurd h.2 (Nat.not_le.mpr hbeyond)]
      simp [Answer.namesWord]
    | objected hrun hfetch _ | executed hrun hfetch _ _ _ =>
      rw [if_pos ⟨hrun, Memory.overrun_eq_none_iff.mp hfetch⟩]
      simp [hrun, Answer.namesWord]

/-- Every fetch of a history is a completed instruction or a fault that names its word. -/
theorem length_fetches (m : Machine) (acts : List Act) :
    (m.fetches acts).length =
      (m.completedIn acts).length + (m.answers acts).countP Answer.namesWord := by
  induction acts generalizing m with
  | nil => rfl
  | cons a rest ih =>
    simp only [fetches, completedIn, answers, List.length_append, List.countP_append, ih,
      length_fetch?]
    omega

theorem countP_records (f : Fetch) : f.records.countP (·.level = .trace) = 1 := by
  unfold Fetch.records
  split_ifs <;> rfl

theorem countP_logged_trace (m : Machine) (acts : List Act) :
    (m.logged (some .trace) acts).countP (·.level = .trace) = (m.fetches acts).length := by
  rw [logged_trace, List.countP_flatMap]
  simp [Function.comp_def, countP_records]

/-! ## Runs of cycles -/

/-- A run does the cycles one by one up to the first fault, and has the log of just these. -/
theorem continueRun_eq (keys : Keypad) (threshold : Option Level) (count : Nat) (r : Run)
    (hr : r.fault = none) :
    continueRun keys threshold count r =
      let cycles := r.machine.steps keys count
      let acts := List.replicate cycles.length (Act.step keys)
      { machine := r.machine.after acts,
        cycles := r.cycles + cycles.countP (·.fault.isNone),
        fault := cycles.findSome? (·.fault),
        log := r.log.appendList (r.machine.logged threshold acts) } := by
  induction count generalizing r with
  | zero => simp [continueRun, steps, logged, ← hr]
  | succ count ih =>
    have hfirst : r.machine.logOf threshold (.step keys) =
        (r.machine.step keys).log.filter (·.visibleAt threshold) := rfl
    cases hfault : (r.machine.step keys).fault with
    | some fault => simp [continueRun, steps, hfault, logged, act, hfirst]
    | none =>
      simp only [continueRun, steps, hfault, ih, Option.isSome_none, Bool.false_eq_true, if_false,
        List.length_cons, List.replicate_succ, after_cons, act, logged, hfirst,
        List.findSome?_cons, List.countP_cons, Option.isNone_none, if_true, Run.mk.injEq]
      refine ⟨trivial, by omega, trivial, ?_⟩
      exact Array.ext' (by simp)

theorem run_eq (m : Machine) (keys : Keypad) (threshold : Option Level) (count : Nat) :
    m.run keys threshold count =
      let cycles := m.steps keys count
      let acts := List.replicate cycles.length (Act.step keys)
      { machine := m.after acts,
        cycles := cycles.countP (·.fault.isNone),
        fault := cycles.findSome? (·.fault),
        log := (m.logged threshold acts).toArray } := by
  rw [run, continueRun_eq _ _ _ _ rfl]
  simp

/-! ## The log -/

/-- **The log is a faithful history.** Whatever is done with a machine, the full log has the fetches
    of its cycles in their order, each with the program counter, the word and its mnemonic, and
    right behind it one remark if the word calls machine code or is not assigned; nothing else is
    logged. So there are as many trace records as there are completed instructions and faults with
    an instruction word. A reader who asked for less sees the records of the levels asked for, and
    of the machine, of the count of cycles and of the fault what everybody sees. -/
theorem log_is_faithful_history (m : Machine) (acts : List Act) :
    m.logged (some .trace) acts = (m.fetches acts).flatMap Fetch.records ∧
    (m.logged (some .trace) acts).map Record.line = (m.fetches acts).flatMap Fetch.lines ∧
    (m.logged (some .trace) acts).countP (·.level = .trace) =
      (m.completedIn acts).length + (m.answers acts).countP Answer.namesWord ∧
    (∀ threshold, m.logged threshold acts =
      (m.logged (some .trace) acts).filter (·.visibleAt threshold)) ∧
    (∀ keys threshold count,
      let r := m.run keys threshold count
      let cycles := List.replicate (m.steps keys count).length (Act.step keys)
      r.log.toList = m.logged threshold cycles ∧ r.machine = m.after cycles ∧
        r.cycles = (m.run keys none count).cycles ∧ r.fault = (m.run keys none count).fault) := by
  refine ⟨m.logged_trace acts, ?_, ?_, fun threshold => ?_, fun keys threshold count => ?_⟩
  · rw [logged_trace, List.map_flatMap]
    simp only [Fetch.map_line_records]
  · rw [countP_logged_trace, length_fetches]
  · rw [logged_eq_filter, logged_trace]
  · simp only [run_eq, and_self]

end Machine

end Chip8
