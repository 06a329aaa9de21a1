import Chip8.Proofs.Execution
import Chip8.Proofs.Loading

set_option autoImplicit false

/-! # Memory as a byte store

Memory is edited by loading a program, writing bytes, setting a byte and filling a range. Each of
these, if it is accepted, puts the bytes of a list from some address on, and else does nothing
(`Memory.edit_eq`); which it is can be told from the edit alone, whatever is in memory. So a history
of edits has for each address a byte that it has put there last, if any (`lastByte`), and that is
the byte that memory holds after it (`Memory.get_edited`). Reading in any way gives these bytes, and
every access is checked against the top of memory alike (`memory_is_byte_store`). -/

namespace Chip8

/-! ## Programs that come to their end -/

namespace Source

open Classical in
/-- The bytes of the stream, if it comes to its end. -/
noncomputable def whole? (s : Source) : Option (List UInt8) :=
  if h : ∃ bytes, s.Stops bytes .ended then some h.choose else none

theorem whole?_eq_some_iff {s : Source} {bytes : List UInt8} :
    s.whole? = some bytes ↔ s.Stops bytes .ended := by
  unfold whole?
  constructor
  · intro h
    split at h
    · next hstops =>
      cases h
      exact hstops.choose_spec
    · cases h
  · intro h
    have hstops : ∃ bytes, s.Stops bytes .ended := ⟨bytes, h⟩
    rw [dif_pos hstops, (hstops.choose_spec.unique h).1]

end Source

/-! ## Edits -/

/-- Something that changes memory. -/
inductive Edit where
  | load (source : Source)
  | write (addr : UInt16) (data : List UInt8)
  | setByte (addr : UInt16) (value : UInt8)
  | fill (addr : UInt16) (len : Nat) (value : UInt8)

namespace Edit

/-- The address of the first byte. -/
def first : Edit → Nat
  | load _ => 0x200
  | write addr _ | setByte addr _ | fill addr _ _ => addr.toNat

/-- The bytes that are to be put there. There are none if a program does not come to its end. -/
noncomputable def data : Edit → List UInt8
  | load source => source.whole?.getD []
  | write _ data => data
  | setByte _ value => [value]
  | fill _ len value => List.replicate len value

/-- Is the edit accepted? A program is if it comes to its end and is not too long, and everything
    else if it ends within memory. -/
noncomputable def accepted : Edit → Bool
  | load source => source.whole?.any (·.length ≤ 3584)
  | e => e.first + e.data.length ≤ 4096

/-- The byte that the edit puts at an address, if it puts one there. -/
noncomputable def byteAt? (e : Edit) (addr : Nat) : Option UInt8 :=
  if e.accepted && e.first ≤ addr then e.data[addr - e.first]? else none

end Edit

/-- The byte that the edits have last put at an address, and that of a fresh memory if they have put
    none there. -/
noncomputable def lastByte (edits : List Edit) (addr : Nat) : UInt8 :=
  (edits.reverse.findSome? (·.byteAt? addr)).getD (Memory.font.getD addr 0)

namespace Memory

/-- The memory that comes of an update, or else the memory as it was. -/
def updated {ε : Type} (m : Memory) (result : Except ε Memory) : Memory :=
  match result with
  | .ok m' => m'
  | .error _ => m

/-- The memory after an edit, whether or not it was accepted. -/
def edit (m : Memory) : Edit → Memory
  | .load source => (m.load source).elim m fun (result, _) => m.updated (result.map (·.2))
  | .write addr data => m.updated (m.write addr data)
  | .setByte addr value => m.updated (m.setByte addr value)
  | .fill addr len value => m.updated (m.fill addr len value)

/-- The memory after some edits, first one first. -/
def edited (m : Memory) (edits : List Edit) : Memory := edits.foldl edit m

/-- An access to `len` bytes from `addr` on is *served* with a value if they lie within memory, and
    else told the first address beyond memory. -/
def Served {α : Type} (addr : UInt16) (len : Nat) (result : Except FaultKind α) (value : α) :
    Prop :=
  result = if addr.toNat + len ≤ 4096 then .ok value
    else .error (.addressOutOfRange (max addr.toNat 4096))

variable (m : Memory)

/-! ## One edit -/

theorem served_of_checked {α : Type} (addr : UInt16) (len : Nat) (value : α) :
    Served addr len ((Memory.check addr len).map fun _ => value) value := by
  unfold Served Memory.check
  split <;> rfl

theorem served_write (addr : UInt16) (data : List UInt8) :
    Served addr data.length (m.write addr data) (m.store addr.toNat data) :=
  served_of_checked addr data.length _

theorem served_setByte (addr : UInt16) (value : UInt8) :
    Served addr 1 (m.setByte addr value) (m.store addr.toNat [value]) :=
  served_write m addr [value]

theorem served_fill (addr : UInt16) (len : Nat) (value : UInt8) :
    Served addr len (m.fill addr len value) (m.store addr.toNat (List.replicate len value)) :=
  served_of_checked addr len _

/-- An update that is served is made, and one that is not changes nothing. -/
theorem updated_of_served {m m' : Memory} {addr : UInt16} {len : Nat} {accepted : Bool}
    {result : Except FaultKind Memory} (h : Served addr len result m')
    (haccepted : accepted = decide (addr.toNat + len ≤ 4096)) :
    m.updated result = if accepted then m' else m := by
  rw [h, haccepted]
  by_cases hwithin : addr.toNat + len ≤ 4096 <;> simp [hwithin, updated]

theorem accepted_load_iff {source : Source} :
    (Edit.load source).accepted = true ↔
      ∃ bytes, source.Stops bytes .ended ∧ bytes.length ≤ 3584 := by
  simp only [Edit.accepted, Option.any_eq_true, decide_eq_true_eq, Source.whole?_eq_some_iff]

theorem data_load {source : Source} {bytes : List UInt8} (h : source.Stops bytes .ended) :
    (Edit.load source).data = bytes := by
  rw [Edit.data, Source.whole?_eq_some_iff.mpr h]
  rfl

/-- A program is loaded if it comes to its end and is not too long. Else there is an error, or the
    source is interrupted for ever. -/
theorem load_cases_accepted (source : Source) :
    if (Edit.load source).accepted then
      ∃ left, m.load source = some (.ok ((Edit.load source).data.length,
        m.store 0x200 (Edit.load source).data), left)
    else (∃ e left, m.load source = some (.error e, left)) ∨
      source.Stalls 3585 ∧ m.load source = none := by
  split
  · next haccepted =>
    obtain ⟨bytes, hstops, hlength⟩ := accepted_load_iff.mp haccepted
    rw [data_load hstops]
    exact load_of_ended hstops hlength
  · next hrefused =>
    obtain ⟨bytes, hbytes, hlength⟩ | ⟨bytes, stop, hstops, hlength⟩ | hstalls :=
      source.fills_or_stops_or_stalls 3585
    · obtain ⟨left, hload, -⟩ := load_of_delivers (m := m) hbytes hlength
      exact .inl ⟨_, left, hload⟩
    · have hle : bytes.length ≤ 3584 := Nat.le_of_lt_succ hlength
      cases stop with
      | ended => exact absurd (accepted_load_iff.mpr ⟨bytes, hstops, hle⟩) hrefused
      | failed reason => exact .inl ⟨_, load_of_failed hstops hle⟩
    · exact .inr ⟨hstalls, load_eq_none_iff.mpr hstalls⟩

/-- An edit puts all of its bytes in their place or none. -/
theorem edit_eq (e : Edit) : m.edit e = if e.accepted then m.store e.first e.data else m := by
  cases e with
  | load source =>
    have hload := m.load_cases_accepted source
    simp only [edit, Edit.first, Edit.data]
    split at hload
    · next haccepted =>
      obtain ⟨left, hload⟩ := hload
      rw [if_pos haccepted, hload]
      rfl
    · next hrefused =>
      rw [if_neg hrefused]
      obtain ⟨e, left, hload⟩ | ⟨-, hload⟩ := hload
      · rw [hload]
        rfl
      · rw [hload]
        rfl
  | write addr data => exact updated_of_served (m.served_write addr data) rfl
  | setByte addr value => exact updated_of_served (m.served_setByte addr value) rfl
  | fill addr len value =>
    refine updated_of_served (m.served_fill addr len value) ?_
    simp only [Edit.accepted, Edit.first, Edit.data, List.length_replicate]

theorem edit_of_accepted (e : Edit) (h : e.accepted = true) :
    m.edit e = m.store e.first e.data := by
  rw [edit_eq, if_pos h]

theorem edit_of_refused (e : Edit) (h : ¬ e.accepted = true) : m.edit e = m := by
  rw [edit_eq, if_neg h]

/-- After an edit, memory holds the byte that the edit puts at an address, or the byte that was
    there before. -/
theorem get_edit (e : Edit) {addr : Nat} (haddr : addr < size) :
    (m.edit e).get addr = (e.byteAt? addr).getD (m.get addr) := by
  rw [edit_eq]
  unfold Edit.byteAt?
  cases e.accepted with
  | false => rfl
  | true =>
    simp only [if_true, Bool.true_and, decide_eq_true_eq]
    rw [get_store _ _ _ _ haddr]
    by_cases hfirst : e.first ≤ addr
    · by_cases hlast : addr < e.first + e.data.length
      · rw [if_pos ⟨hfirst, hlast⟩, if_pos hfirst, List.getD_eq_getElem?_getD,
          List.getElem?_eq_getElem (by omega)]
        rfl
      · rw [if_neg fun h => hlast h.2, if_pos hfirst, List.getElem?_eq_none (by omega)]
        rfl
    · rw [if_neg fun h => hfirst h.1, if_neg hfirst]
      rfl

/-! ## Many edits -/

theorem edited_append (edits more : List Edit) :
    m.edited (edits ++ more) = (m.edited edits).edited more :=
  List.foldl_append

theorem get_edited (edits : List Edit) {addr : Nat} (haddr : addr < size) :
    (m.edited edits).get addr =
      (edits.reverse.findSome? (·.byteAt? addr)).getD (m.get addr) := by
  induction edits generalizing m with
  | nil => rfl
  | cons e rest ih =>
    have hrest := ih (m.edit e)
    rw [get_edit m e haddr] at hrest
    refine hrest.trans ?_
    rw [List.reverse_cons, List.findSome?_append, List.findSome?_singleton]
    cases rest.reverse.findSome? (·.byteAt? addr) <;> rfl

theorem get_fresh {addr : Nat} (haddr : addr < size) : fresh.get addr = font.getD addr 0 := by
  have hblank : get { bytes := Vector.replicate 4096 0 } addr = 0 := by
    simp [get]
  rw [fresh, get_store _ _ _ _ haddr, hblank]
  have hstart : fontStart.toNat = 0 := rfl
  rw [hstart]
  split
  · rfl
  · next h => rw [List.getD_eq_getElem?_getD, List.getElem?_eq_none (by omega)]; rfl

theorem get_edited_fresh (edits : List Edit) {addr : Nat} (haddr : addr < size) :
    (fresh.edited edits).get addr = lastByte edits addr := by
  rw [get_edited _ _ haddr, get_fresh haddr]
  rfl

theorem Served.congr {α : Type} {addr : UInt16} {len : Nat} {result : Except FaultKind α}
    {value value' : α} (h : Served addr len result value)
    (hvalue : addr.toNat + len ≤ size → value = value') : Served addr len result value' := by
  refine h.trans ?_
  split
  · next hwithin => rw [hvalue hwithin]
  · rfl

/-- **Memory is a byte store.** After any edits of a fresh memory, every access is served if and
    only if it ends within memory, and else told the first address beyond memory: reading a range, a
    byte or a big-endian word, writing, setting a byte and filling a range. What is read is at each
    address the byte that the edits have put there last, and if they have put none there, that of
    the font or zero. A program is loaded if and only if it comes whole and fits; else there is an
    error, or no result at all of a source that is interrupted for ever. An edit that is not
    accepted changes nothing. -/
theorem memory_is_byte_store (edits : List Edit) :
    let m := fresh.edited edits
    let byteAt := lastByte edits
    (∀ addr len,
      Served addr len (m.read addr len) ((List.range len).map fun k => byteAt (addr.toNat + k))) ∧
    (∀ addr, Served addr 1 (m.byte addr) (byteAt addr.toNat)) ∧
    (∀ addr, Served addr 2 (m.word addr)
      (.ofNat (256 * (byteAt addr.toNat).toNat + (byteAt (addr.toNat + 1)).toNat))) ∧
    (∀ addr data, Served addr data.length (m.write addr data) (m.edit (.write addr data))) ∧
    (∀ addr value, Served addr 1 (m.setByte addr value) (m.edit (.setByte addr value))) ∧
    (∀ addr len value, Served addr len (m.fill addr len value) (m.edit (.fill addr len value))) ∧
    (∀ source, if (Edit.load source).accepted then
      ∃ left, m.load source =
        some (.ok ((Edit.load source).data.length, m.edit (.load source)), left)
      else (∃ e left, m.load source = some (.error e, left)) ∨
        source.Stalls 3585 ∧ m.load source = none) ∧
    ∀ e : Edit, e.accepted ∨ m.edit e = m := by
  intro m byteAt
  have hget {addr : Nat} (haddr : addr < size) : m.get addr = byteAt addr :=
    get_edited_fresh edits haddr
  refine ⟨fun addr len => ?_, fun addr => ?_, fun addr => ?_, fun addr data => ?_,
    fun addr value => ?_, fun addr len value => ?_, fun source => ?_, fun e => ?_⟩
  · refine (served_of_checked addr len _).congr fun hwithin => List.map_congr_left fun k hk => ?_
    have hlt := List.mem_range.mp hk
    exact hget (by omega)
  · exact (served_of_checked addr 1 _).congr fun hwithin => hget (by omega)
  · refine (served_of_checked addr 2 _).congr fun hwithin => ?_
    rw [hget (by omega), hget (by omega)]
  · exact (m.served_write addr data).congr fun hwithin =>
      (m.edit_of_accepted (.write addr data) (decide_eq_true hwithin)).symm
  · exact (m.served_setByte addr value).congr fun hwithin =>
      (m.edit_of_accepted (.setByte addr value) (decide_eq_true hwithin)).symm
  · refine (m.served_fill addr len value).congr fun hwithin => ?_
    refine (m.edit_of_accepted (.fill addr len value) ?_).symm
    simp only [Edit.accepted, Edit.first, Edit.data, List.length_replicate]
    exact decide_eq_true hwithin
  · have hload := m.load_cases_accepted source
    split at hload
    · next haccepted =>
      rw [if_pos haccepted, m.edit_of_accepted _ haccepted]
      exact hload
    · next hrefused =>
      rw [if_neg hrefused]
      exact hload
  · by_cases haccepted : e.accepted = true
    · exact .inl haccepted
    · exact .inr (m.edit_of_refused e haccepted)

/-- An empty access at the top of memory is served, and one past the top is not. -/
example : Memory.fresh.read 4096 0 = .ok [] ∧
    Memory.fresh.read 4097 0 = .error (.addressOutOfRange 4097) := ⟨rfl, rfl⟩

end Memory

end Chip8
