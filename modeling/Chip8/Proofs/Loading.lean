import Chip8.Machine.Basic
import Mathlib.Order.WellFounded

set_option autoImplicit false

/-! # The loader sees a stream of bytes

Between the answers of a source and the bytes of a program there is a stream. Its bytes are those
that the answers deliver before one of them stops the stream, by its end or by a failure, and an
interruption adds nothing to it. Answers may go on for ever, so a stream is known by its beginnings:
it *delivers* some bytes if the first answers do, as many as it takes, and it *stops* after some
bytes if one of the answers stops it there.

Taking bytes from a source is said one answer at a time (`Source.take_of_stop`, `take_of_fits`,
`take_of_cut`), and in terms of the stream by induction on the answers: what is taken is what the
stream delivers, and what follows it is left (`take_of_delivers`); a stream that stops too early is
met at its stop (`take_of_stops`); and only a source that is interrupted for ever gives no result
(`take_eq_none_iff`). All there is to know about loading follows, with the edge between a program
that fits and one that does not: a failure right after the last byte that fits is met, and one right
after the byte that does not fit is not. -/

namespace Chip8

/-! ## What answers deliver -/

/-- The bytes that the answers deliver before one of them stops the stream. -/
def delivered (reads : List Read) : List UInt8 :=
  (reads.takeWhile (·.stop?.isNone)).flatMap Read.chunk

/-- How the first answer that stops the stream stops it, if there is one. -/
def firstStop (reads : List Read) : Option Stop := reads.findSome? Read.stop?

section

variable {r : Read} {reads rest : List Read} {stop : Stop}

theorem delivered_cons (h : r.stop? = none) :
    delivered (r :: rest) = r.chunk ++ delivered rest := by
  simp [delivered, h]

theorem firstStop_cons (h : r.stop? = none) : firstStop (r :: rest) = firstStop rest := by
  simp [firstStop, h]

theorem delivered_of_stop (h : r.stop? = some stop) : delivered (r :: rest) = [] := by
  simp [delivered, h]

theorem firstStop_of_stop (h : r.stop? = some stop) : firstStop (r :: rest) = some stop := by
  simp [firstStop, h]

/-- As long as the stream has not been stopped, more answers deliver more. -/
theorem delivered_append (h : firstStop reads = none) (rest : List Read) :
    delivered (reads ++ rest) = delivered reads ++ delivered rest := by
  induction reads with
  | nil => rfl
  | cons r reads ih =>
    cases hr : r.stop? with
    | some stop => cases h.symm.trans (firstStop_of_stop hr)
    | none =>
      rw [firstStop_cons hr] at h
      rw [List.cons_append, delivered_cons hr, delivered_cons hr, ih h, List.append_assoc]

/-- Once the stream has been stopped, no answer delivers anything. -/
theorem delivered_append_of_stop (h : firstStop reads = some stop) (rest : List Read) :
    delivered (reads ++ rest) = delivered reads := by
  induction reads with
  | nil => cases h
  | cons r reads ih =>
    cases hr : r.stop? with
    | some stop => rw [List.cons_append, delivered_of_stop hr, delivered_of_stop hr]
    | none =>
      rw [firstStop_cons hr] at h
      rw [List.cons_append, delivered_cons hr, delivered_cons hr, ih h]

theorem firstStop_append (reads rest : List Read) :
    firstStop (reads ++ rest) = (firstStop reads).or (firstStop rest) :=
  List.findSome?_append

/-- What the answers have delivered stays delivered, whatever the answers after them. -/
theorem prefix_delivered_append (reads rest : List Read) :
    delivered reads <+: delivered (reads ++ rest) := by
  cases h : firstStop reads with
  | some stop => exact ⟨[], by rw [List.append_nil, delivered_append_of_stop h]⟩
  | none => exact ⟨delivered rest, (delivered_append h rest).symm⟩

end

namespace Source

/-! ## The answers of a source -/

/-- What the source answers after `i` other answers. -/
def answer (s : Source) (i : Nat) : Read :=
  match s.reads[i]?, s.forever with
  | some r, _ => r
  | none, some e => e.answer (i - s.reads.length)
  | none, none => .bytes []

/-- The first `k` answers. -/
def first (s : Source) (k : Nat) : List Read := (List.range k).map s.answer

/-- The source when its first answer has been given. -/
def tail (s : Source) : Source :=
  match s.reads, s.forever with
  | _ :: rest, forever => { reads := rest, forever }
  | [], some e => { reads := [], forever := some e.next }
  | [], none => { reads := [] }

/-- The source with another answer before the others. -/
def push (s : Source) (r : Read) : Source := { s with reads := r :: s.reads }

variable {s s' left : Source} {bytes more : List UInt8} {stop : Stop} {room k : Nat}

theorem answer_tail (s : Source) (i : Nat) : s.tail.answer i = s.answer (i + 1) := by
  obtain ⟨reads, forever⟩ := s
  cases reads with
  | cons r rest => simp [tail, answer]
  | nil => cases forever <;> simp [tail, answer, Endless.next]

theorem first_succ (s : Source) (k : Nat) :
    s.first (k + 1) = s.answer 0 :: s.tail.first k := by
  have htail : s.tail.answer = fun i => s.answer (i + 1) := funext s.answer_tail
  rw [first, first, List.range_succ_eq_map, List.map_cons, List.map_map, htail]
  rfl

theorem first_succ_last (s : Source) (k : Nat) : s.first (k + 1) = s.first k ++ [s.answer k] := by
  simp [first, List.range_succ]

theorem first_mono {j : Nat} (h : j ≤ k) : s.first j <+: s.first k := by
  induction k, h using Nat.le_induction with
  | base => exact List.prefix_rfl
  | succ k _ ih =>
    rw [first_succ_last]
    exact ih.trans (List.prefix_append _ _)

/-! ## Taking, one answer at a time -/

theorem behind_nil (t : Taken) : t.behind [] = t := by
  obtain ⟨result, left⟩ := t
  cases result <;> rfl

theorem behind_behind (t : Taken) (chunk chunk' : List UInt8) :
    (t.behind chunk').behind chunk = t.behind (chunk ++ chunk') := by
  obtain ⟨result, left⟩ := t
  cases result with
  | error reason => rfl
  | ok bytes => simp [Taken.behind, Except.map]

theorem take_zero (s : Source) : s.take 0 = some { result := .ok [], left := s } := by
  simp only [take, takeReads]

/-- To take bytes from a source is to ask for its first answer and go on from there, wherever the
    answer comes from. -/
theorem take_push_tail (s : Source) (room : Nat) :
    (s.tail.push (s.answer 0)).take (room + 1) = s.take (room + 1) := by
  obtain ⟨_ | ⟨r, rest⟩, _ | e⟩ := s
  case nil.none => simp [push, tail, answer, take, takeReads, Read.stop?, Stop.result]
  case nil.some =>
    have hforever : ({ reads := [], forever := some e } : Source).take (room + 1) =
        e.take (room + 1) := by
      simp only [take, takeReads, behind_nil, Option.map_id']
    have hpush : ({ reads := [], forever := some e } : Source).tail.push (e.answer 0) =
        { reads := [e.answer 0], forever := some e.next } := rfl
    have hanswer : ({ reads := [], forever := some e } : Source).answer 0 = e.answer 0 := rfl
    rw [hanswer, hpush, hforever, Endless.take, take]
    cases takeReads (room + 1) [e.answer 0] with
    | settled result left => rfl
    | wanting taken room =>
      dsimp only
      cases e.next.take room <;> rfl
  case cons.none | cons.some => rfl

/-- A first answer that stops the stream is the end of it. -/
theorem take_of_stop (h : (s.answer 0).stop? = some stop) :
    s.take (room + 1) = some { result := stop.result, left := s.tail } := by
  rw [← take_push_tail]
  simp only [push, take, takeReads, h]

/-- A first answer that fits is taken, and then the others fill what is left of the room. -/
theorem take_of_fits (h : (s.answer 0).stop? = none)
    (hfits : (s.answer 0).chunk.length ≤ room + 1) :
    s.take (room + 1) =
      (s.tail.take (room + 1 - (s.answer 0).chunk.length)).map (·.behind (s.answer 0).chunk) := by
  rw [← take_push_tail]
  simp only [push, take, takeReads, h, if_pos hfits]
  cases takeReads (room + 1 - (s.answer 0).chunk.length) s.tail.reads with
  | settled result left => rfl
  | wanting taken room =>
    cases s.tail.forever with
    | none => rfl
    | some e => simp [Taking.behind, Function.comp_def, behind_behind]

/-- A first answer with more bytes than there is room for is cut, and the rest of it is left. -/
theorem take_of_cut (h : (s.answer 0).stop? = none)
    (hlong : room + 1 < (s.answer 0).chunk.length) :
    s.take (room + 1) =
      some { result := .ok ((s.answer 0).chunk.take (room + 1)),
             left := s.tail.push (.bytes ((s.answer 0).chunk.drop (room + 1))) } := by
  rw [← take_push_tail]
  simp only [push, take, takeReads, h, if_neg (Nat.not_le.mpr hlong)]

/-! ## The stream of a source -/

/-- The stream begins with the given bytes. -/
def Delivers (s : Source) (bytes : List UInt8) : Prop := ∃ k, bytes <+: delivered (s.first k)

/-- The stream consists of the given bytes and then stops. -/
def Stops (s : Source) (bytes : List UInt8) (stop : Stop) : Prop :=
  ∃ k, delivered (s.first k) = bytes ∧ firstStop (s.first k) = some stop

/-- From some answer on, the source is interrupted for ever. Before that it has delivered fewer than
    `room` bytes and not stopped. -/
def Stalls (s : Source) (room : Nat) : Prop :=
  ∃ k, firstStop (s.first k) = none ∧ (delivered (s.first k)).length < room ∧
    ∀ i, k ≤ i → s.answer i = .interrupted

/-- The stream of `left` is that of `s` without the given bytes at its beginning. -/
def Follows (left : Source) (bytes : List UInt8) (s : Source) : Prop :=
  (∀ more, left.Delivers more ↔ s.Delivers (bytes ++ more)) ∧
  ∀ more stop, left.Stops more stop ↔ s.Stops (bytes ++ more) stop

theorem delivered_mono {j : Nat} (h : j ≤ k) :
    delivered (s.first j) <+: delivered (s.first k) := by
  obtain ⟨rest, hrest⟩ := first_mono (s := s) h
  rw [← hrest]
  exact prefix_delivered_append _ _

/-- Nothing is delivered and nothing stops the stream once it has been stopped. -/
theorem stopped_of_le {j : Nat} (h : j ≤ k) (hstop : firstStop (s.first j) = some stop) :
    delivered (s.first k) = delivered (s.first j) ∧ firstStop (s.first k) = some stop := by
  obtain ⟨rest, hrest⟩ := first_mono (s := s) h
  rw [← hrest, delivered_append_of_stop hstop, firstStop_append, hstop]
  exact ⟨rfl, rfl⟩

theorem Delivers.of_prefix (h : s.Delivers bytes) (hmore : more <+: bytes) : s.Delivers more :=
  h.imp fun _ hk => hmore.trans hk

theorem Stops.delivers (h : s.Stops bytes stop) : s.Delivers bytes := by
  obtain ⟨k, rfl, -⟩ := h
  exact ⟨k, List.prefix_rfl⟩

/-- A stream that has stopped delivers nothing more. -/
theorem Stops.prefix_of_delivers (h : s.Stops bytes stop) (hmore : s.Delivers more) :
    more <+: bytes := by
  obtain ⟨k, rfl, hstop⟩ := h
  obtain ⟨j, hj⟩ := hmore
  have hstopped := (stopped_of_le (Nat.le_max_left k j) hstop).1
  rw [← hstopped]
  exact hj.trans (delivered_mono (Nat.le_max_right k j))

theorem Stops.unique {stop' : Stop} (h : s.Stops bytes stop) (h' : s.Stops more stop') :
    bytes = more ∧ stop = stop' := by
  have hbytes := h'.prefix_of_delivers h.delivers
  have hmore := h.prefix_of_delivers h'.delivers
  refine ⟨hbytes.eq_of_length_le hmore.length_le, ?_⟩
  obtain ⟨k, -, hk⟩ := h
  obtain ⟨j, -, hj⟩ := h'
  have hk' := (stopped_of_le (Nat.le_max_left k j) hk).2
  have hj' := (stopped_of_le (Nat.le_max_right k j) hj).2
  exact Option.some.inj (hk'.symm.trans hj')

/-! ## What follows -/

theorem follows_self (s : Source) : s.Follows [] s := ⟨fun _ => Iff.rfl, fun _ _ => Iff.rfl⟩

theorem Follows.trans {middle : Source} (h : left.Follows more middle)
    (h' : middle.Follows bytes s) : left.Follows (bytes ++ more) s := by
  refine ⟨fun rest => ?_, fun rest stop => ?_⟩
  · rw [h.1, h'.1, List.append_assoc]
  · rw [h.2, h'.2, List.append_assoc]

/-- A source follows another one if its answers, from some number of them on, deliver what the
    answers of the other deliver after the bytes, and stop it alike. -/
theorem follows_of_first (a b : Nat)
    (h : ∀ k, delivered (s.first (k + a)) = bytes ++ delivered (left.first (k + b)) ∧
      firstStop (s.first (k + a)) = firstStop (left.first (k + b))) :
    left.Follows bytes s := by
  refine ⟨fun more => ⟨?_, ?_⟩, fun more stop => ⟨?_, ?_⟩⟩
  · rintro ⟨k, hk⟩
    refine ⟨k + a, ?_⟩
    rw [(h k).1, List.prefix_append_right_inj]
    exact hk.trans (delivered_mono (Nat.le_add_right k b))
  · rintro ⟨k, hk⟩
    refine ⟨k + b, ?_⟩
    have hlater := hk.trans (delivered_mono (Nat.le_add_right k a))
    rwa [(h k).1, List.prefix_append_right_inj] at hlater
  · rintro ⟨k, rfl, hstop⟩
    have hlater := stopped_of_le (Nat.le_add_right k b) hstop
    exact ⟨k + a, by rw [(h k).1, hlater.1], (h k).2.trans hlater.2⟩
  · rintro ⟨k, hk, hstop⟩
    have hlater := stopped_of_le (Nat.le_add_right k a) hstop
    rw [(h k).1, (h k).2, hk, List.append_cancel_left_eq] at hlater
    exact ⟨k + b, hlater⟩

/-- The other answers follow the first one. -/
theorem follows_tail (h : (s.answer 0).stop? = none) : s.tail.Follows (s.answer 0).chunk s := by
  refine follows_of_first 1 0 fun k => ?_
  rw [first_succ, delivered_cons h, firstStop_cons h]
  exact ⟨rfl, rfl⟩

/-- What is left of the first answer follows what has been taken of it, with the other answers. -/
theorem follows_cut {kept : List UInt8} (h : (s.answer 0).stop? = none)
    (hchunk : (s.answer 0).chunk = bytes ++ kept) (hkept : kept ≠ []) :
    (s.tail.push (.bytes kept)).Follows bytes s := by
  obtain ⟨b, rest, rfl⟩ := List.exists_cons_of_ne_nil hkept
  have hr : (Read.bytes (b :: rest)).stop? = none := rfl
  refine follows_of_first 1 1 fun k => ?_
  have hfirst : (s.tail.push (.bytes (b :: rest))).first (k + 1) =
      .bytes (b :: rest) :: s.tail.first k := first_succ _ k
  rw [first_succ, hfirst, delivered_cons h, delivered_cons hr, firstStop_cons h, firstStop_cons hr,
    hchunk, List.append_assoc]
  exact ⟨rfl, rfl⟩

/-! ## Taking from the stream -/

/-- What is taken from the other answers is taken after the first one. -/
theorem take_append (h : (s.answer 0).stop? = none) (hne : (s.answer 0).chunk ++ more ≠ [])
    (htake : s.tail.take more.length = some { result := .ok more, left }) :
    s.take ((s.answer 0).chunk ++ more).length =
      some { result := .ok ((s.answer 0).chunk ++ more), left } := by
  obtain ⟨room, hroom⟩ := Nat.exists_eq_succ_of_ne_zero (mt List.eq_nil_of_length_eq_zero hne)
  have hfits : (s.answer 0).chunk.length ≤ room + 1 := by
    rw [← Nat.succ_eq_add_one, ← hroom, List.length_append]
    exact Nat.le_add_right _ _
  have hrest : room + 1 - (s.answer 0).chunk.length = more.length := by
    rw [← Nat.succ_eq_add_one, ← hroom, List.length_append, Nat.add_sub_cancel_left]
  rw [hroom, take_of_fits h hfits, hrest, htake]
  rfl

/-- Less than the first answer delivers is taken of it, and the rest of it is left. -/
theorem take_within {kept : List UInt8} (h : (s.answer 0).stop? = none) (hne : bytes ≠ [])
    (hchunk : (s.answer 0).chunk = bytes ++ kept) (hkept : kept ≠ []) :
    s.take bytes.length = some { result := .ok bytes, left := s.tail.push (.bytes kept) } := by
  obtain ⟨room, hroom⟩ := Nat.exists_eq_succ_of_ne_zero (mt List.eq_nil_of_length_eq_zero hne)
  have hlong : room + 1 < (s.answer 0).chunk.length := by
    rw [hchunk, List.length_append, hroom]
    exact Nat.lt_add_of_pos_right (List.length_pos_iff.mpr hkept)
  rw [hroom, take_of_cut h hlong, hchunk, ← Nat.succ_eq_add_one, ← hroom, List.take_left,
    List.drop_left]

/-- What the stream delivers is taken, and nothing beyond it. -/
theorem take_of_delivers (h : s.Delivers bytes) :
    ∃ left, s.take bytes.length = some { result := .ok bytes, left } ∧ left.Follows bytes s := by
  obtain ⟨k, hk⟩ := h
  induction k generalizing s bytes with
  | zero =>
    obtain rfl := List.prefix_nil.mp hk
    exact ⟨s, s.take_zero, s.follows_self⟩
  | succ k ih =>
    by_cases hne : bytes = []
    · subst hne
      exact ⟨s, s.take_zero, s.follows_self⟩
    rw [first_succ] at hk
    cases hr : (s.answer 0).stop? with
    | some stop =>
      rw [delivered_of_stop hr, List.prefix_nil] at hk
      exact absurd hk hne
    | none =>
      rw [delivered_cons hr] at hk
      by_cases hfits : (s.answer 0).chunk.length ≤ bytes.length
      · obtain ⟨more, rfl⟩ : (s.answer 0).chunk <+: bytes :=
          List.prefix_of_prefix_length_le (List.prefix_append _ _) hk hfits
        obtain ⟨left, htake, hfollows⟩ := ih ((List.prefix_append_right_inj _).mp hk)
        exact ⟨left, take_append hr hne htake, hfollows.trans (follows_tail hr)⟩
      · obtain ⟨kept, hkept⟩ : bytes <+: (s.answer 0).chunk :=
          List.prefix_of_prefix_length_le hk (List.prefix_append _ _) (by omega)
        have hmore : kept ≠ [] := by
          rintro rfl
          rw [← hkept, List.append_nil] at hfits
          exact hfits (Nat.le_refl _)
        exact ⟨_, take_within hr hne hkept.symm hmore, follows_cut hr hkept.symm hmore⟩

/-- A stream that stops before the room is filled is met there. -/
theorem take_of_stops (h : s.Stops bytes stop) (hroom : bytes.length < room) :
    ∃ left, s.take room = some { result := stop.result.map (bytes ++ ·), left } := by
  obtain ⟨k, hk, hstop⟩ := h
  obtain ⟨room, rfl⟩ : ∃ fewer, room = fewer + 1 := ⟨room - 1, by omega⟩
  induction k generalizing s bytes room with
  | zero => cases hstop
  | succ k ih =>
    rw [first_succ] at hk hstop
    cases hr : (s.answer 0).stop? with
    | some stop' =>
      rw [firstStop_of_stop hr] at hstop
      rw [delivered_of_stop hr] at hk
      cases hstop
      cases hk
      refine ⟨s.tail, ?_⟩
      rw [take_of_stop hr]
      cases stop <;> rfl
    | none =>
      rw [delivered_cons hr] at hk
      rw [firstStop_cons hr] at hstop
      obtain rfl := hk
      rw [List.length_append] at hroom
      have hless : room + 1 - (s.answer 0).chunk.length = room - (s.answer 0).chunk.length + 1 := by
        omega
      obtain ⟨left, htake⟩ := ih rfl hstop (room - (s.answer 0).chunk.length) (by omega)
      refine ⟨left, ?_⟩
      rw [take_of_fits hr (by omega), hless, htake]
      cases stop with
      | failed reason => rfl
      | ended => exact congrArg some (by simp [Taken.behind, Stop.result, Except.map])

/-! ## Waiting for ever -/

/-- Nothing ever comes of taking bytes from interruptions. -/
theorem endless_take_of_interrupted {e : Endless} (h : ∀ i, e.answer i = .interrupted)
    (hroom : 0 < room) : e.take room = none := by
  rw [Option.eq_none_iff_forall_ne_some]
  intro taken htaken
  -- a loop that comes to something has met another answer
  have hmet : (∀ i, e.answer i = .interrupted) → room = 0 := by
    refine Endless.take.partial_correctness
      (fun e room _ => (∀ i, e.answer i = .interrupted) → room = 0)
      (fun loop ih e room taken htaken hwait => ?_) e room taken htaken
    cases room with
    | zero => rfl
    | succ room =>
      have hnothing : takeReads (room + 1) [e.answer 0] = .wanting [] (room + 1) := by
        rw [hwait 0]
        rfl
      simp only [hnothing] at htaken
      obtain ⟨more, hmore, -⟩ := Option.bind_eq_some_iff.mp htaken
      exact ih _ _ _ hmore fun i => hwait (i + 1)
  exact absurd (hmet h) (Nat.ne_of_gt hroom)

theorem take_of_interrupted (h : ∀ i, s.answer i = .interrupted) (hroom : 0 < room) :
    s.take room = none := by
  obtain ⟨room, rfl⟩ : ∃ fewer, room = fewer + 1 := ⟨room - 1, by omega⟩
  obtain ⟨reads, forever⟩ := s
  induction reads with
  | nil =>
    cases forever with
    | none => cases h 0
    | some e => simp only [take, takeReads, endless_take_of_interrupted h hroom, Option.map_none]
  | cons r rest ih =>
    obtain rfl : r = .interrupted := h 0
    have hrest (i : Nat) : ({ reads := rest, forever } : Source).answer i = .interrupted :=
      (answer_tail { reads := .interrupted :: rest, forever } i).trans (h (i + 1))
    exact (take_of_fits rfl (Nat.zero_le _)).trans (congrArg (Option.map _) (ih hrest))

/-- Nothing comes of a source that is interrupted for ever before the room is filled. -/
theorem take_of_stalls (h : s.Stalls room) : s.take room = none := by
  obtain ⟨k, hstop, hlength, hwait⟩ := h
  induction k generalizing s room with
  | zero => exact take_of_interrupted (fun i => hwait i (Nat.zero_le i)) hlength
  | succ k ih =>
    rw [first_succ] at hstop hlength
    cases hr : (s.answer 0).stop? with
    | some stop => cases (firstStop_of_stop hr).symm.trans hstop
    | none =>
      rw [firstStop_cons hr] at hstop
      rw [delivered_cons hr, List.length_append] at hlength
      obtain ⟨room, rfl⟩ : ∃ fewer, room = fewer + 1 := ⟨room - 1, by omega⟩
      have hrest : ∀ i, k ≤ i → s.tail.answer i = .interrupted := fun i hi =>
        (answer_tail s i).trans (hwait (i + 1) (Nat.succ_le_succ hi))
      rw [take_of_fits hr (by omega), ih hstop (by omega) hrest]
      rfl

/-- A source that neither fills the room nor stops has nothing but interruptions to give. -/
theorem stalls_of_neither (hlength : ∀ bytes, s.Delivers bytes → bytes.length < room)
    (hstops : ∀ bytes stop, ¬ s.Stops bytes stop) : s.Stalls room := by
  have hlength (k : Nat) : (delivered (s.first k)).length < room :=
    hlength _ ⟨k, List.prefix_rfl⟩
  have hstop (k : Nat) : firstStop (s.first k) = none :=
    Option.eq_none_iff_forall_ne_some.mpr fun stop hsome => hstops _ stop ⟨k, rfl, hsome⟩
  -- nothing more is delivered once the most has been delivered
  let missing (k : Nat) := room - (delivered (s.first k)).length
  refine ⟨Function.argmin missing, hstop _, hlength _, fun i hi => ?_⟩
  have hnext : room - (delivered (s.first (Function.argmin missing))).length
      ≤ room - (delivered (s.first (i + 1))).length := Function.argmin_le missing (i + 1)
  have hmore := (delivered_mono (s := s) hi).length_le
  have hstops := hstop (i + 1)
  rw [first_succ_last, delivered_append (hstop i), List.length_append] at hnext
  rw [first_succ_last, firstStop_append, hstop i] at hstops
  cases hr : s.answer i with
  | interrupted => rfl
  | failed reason =>
    rw [hr] at hstops
    cases hstops
  | bytes chunk =>
    rw [hr] at hstops hnext
    cases chunk with
    | nil => cases hstops
    | cons b rest =>
      have hone : 0 < (delivered [.bytes (b :: rest)]).length := by
        rw [delivered_cons rfl]
        exact Nat.succ_pos _
      have hroom := hlength i
      omega

/-- There are three kinds of sources: those that fill the room, those that stop before, and those
    that do neither. -/
theorem fills_or_stops_or_stalls (s : Source) (room : Nat) :
    (∃ bytes, s.Delivers bytes ∧ bytes.length = room) ∨
    (∃ bytes stop, s.Stops bytes stop ∧ bytes.length < room) ∨ s.Stalls room := by
  by_cases hfills : ∃ bytes, s.Delivers bytes ∧ room ≤ bytes.length
  · obtain ⟨bytes, hbytes, hle⟩ := hfills
    exact .inl ⟨_, hbytes.of_prefix (List.take_prefix room bytes), List.length_take_of_le hle⟩
  · have hlength : ∀ bytes, s.Delivers bytes → bytes.length < room := fun bytes hbytes =>
      Nat.lt_of_not_le fun hle => hfills ⟨bytes, hbytes, hle⟩
    by_cases hstops : ∃ bytes stop, s.Stops bytes stop
    · obtain ⟨bytes, stop, hstop⟩ := hstops
      exact .inr (.inl ⟨bytes, stop, hstop, hlength bytes hstop.delivers⟩)
    · exact .inr (.inr (stalls_of_neither hlength fun bytes stop h => hstops ⟨bytes, stop, h⟩))

theorem take_eq_none_iff : s.take room = none ↔ s.Stalls room := by
  refine ⟨fun h => ?_, take_of_stalls⟩
  obtain ⟨bytes, hbytes, rfl⟩ | ⟨bytes, stop, hstop, hlength⟩ | hstalls :=
    s.fills_or_stops_or_stalls room
  · obtain ⟨left, htake, -⟩ := take_of_delivers hbytes
    cases h.symm.trans htake
  · obtain ⟨left, htake⟩ := take_of_stops hstop hlength
    cases h.symm.trans htake
  · exact hstalls

/-- Sources with streams that agree as far as there is room, and if they stop before that in the way
    they stop, are taken from alike. -/
theorem result_congr
    (hdelivers : ∀ bytes : List UInt8, bytes.length ≤ room →
      (s'.Delivers bytes ↔ s.Delivers bytes))
    (hstops : ∀ (bytes : List UInt8) (stop : Stop), bytes.length < room →
      (s'.Stops bytes stop ↔ s.Stops bytes stop)) :
    (s'.take room).map (·.result) = (s.take room).map (·.result) := by
  obtain ⟨bytes, hbytes, rfl⟩ | ⟨bytes, stop, hstop, hlength⟩ | hstalls :=
    s.fills_or_stops_or_stalls room
  · obtain ⟨left, htake, -⟩ := take_of_delivers hbytes
    obtain ⟨left', htake', -⟩ := take_of_delivers ((hdelivers bytes (Nat.le_refl _)).mpr hbytes)
    rw [htake, htake']
    rfl
  · obtain ⟨left, htake⟩ := take_of_stops hstop hlength
    obtain ⟨left', htake'⟩ := take_of_stops ((hstops bytes stop hlength).mpr hstop) hlength
    rw [htake, htake']
    rfl
  · have htake := take_of_stalls hstalls
    obtain ⟨bytes, hbytes, rfl⟩ | ⟨bytes, stop, hstop, hlength⟩ | hstalls' :=
      s'.fills_or_stops_or_stalls room
    · obtain ⟨left, htaken, -⟩ :=
        take_of_delivers ((hdelivers bytes (Nat.le_refl _)).mp hbytes)
      cases htake.symm.trans htaken
    · obtain ⟨left, htaken⟩ := take_of_stops ((hstops bytes stop hlength).mp hstop) hlength
      cases htake.symm.trans htaken
    · rw [htake, take_of_stalls hstalls']

/-! ## Cuts and interruptions -/

theorem first_cons (r : Read) (rest : List Read) (forever : Option Endless) (k : Nat) :
    ({ reads := r :: rest, forever } : Source).first (k + 1) =
      r :: ({ reads := rest, forever } : Source).first k :=
  first_succ _ k

theorem first_append (before reads : List Read) (forever : Option Endless) (k : Nat) :
    ({ reads := before ++ reads, forever } : Source).first (k + before.length) =
      before ++ ({ reads, forever } : Source).first k := by
  induction before with
  | nil => rfl
  | cons r before ih =>
    rw [List.length_cons, ← Nat.add_assoc, List.cons_append, first_cons, ih, List.cons_append]

/-- Answers deliver and stop the same after any others. -/
theorem follows_of_reads {reads reads' : List Read} {forever : Option Endless}
    (before : List Read) (a b : Nat)
    (h : ∀ k, delivered (({ reads, forever } : Source).first (k + a)) =
        delivered (({ reads := reads', forever } : Source).first (k + b)) ∧
      firstStop (({ reads, forever } : Source).first (k + a)) =
        firstStop (({ reads := reads', forever } : Source).first (k + b))) :
    Follows { reads := before ++ reads', forever } [] { reads := before ++ reads, forever } := by
  refine follows_of_first (a + before.length) (b + before.length) fun k => ?_
  obtain ⟨hdelivered, hstop⟩ := h k
  rw [← Nat.add_assoc, ← Nat.add_assoc, first_append, first_append, firstStop_append,
    firstStop_append, hstop, List.nil_append]
  refine ⟨?_, rfl⟩
  cases hbefore : firstStop before with
  | some stop => rw [delivered_append_of_stop hbefore, delivered_append_of_stop hbefore]
  | none => rw [delivered_append hbefore, delivered_append hbefore, hdelivered]

/-- Where a run of bytes is cut into answers, the stream does not show. -/
theorem follows_joined {chunk chunk' : List UInt8} (hchunk : chunk ≠ []) (hchunk' : chunk' ≠ [])
    (before rest : List Read) (forever : Option Endless) :
    Follows { reads := before ++ .bytes (chunk ++ chunk') :: rest, forever } []
      { reads := before ++ .bytes chunk :: .bytes chunk' :: rest, forever } := by
  obtain ⟨b, chunk, rfl⟩ := List.exists_cons_of_ne_nil hchunk
  obtain ⟨b', chunk', rfl⟩ := List.exists_cons_of_ne_nil hchunk'
  have hr (b : UInt8) (rest : List UInt8) : (Read.bytes (b :: rest)).stop? = none := rfl
  refine follows_of_reads before 2 1 fun k => ?_
  rw [first_cons, first_cons, first_cons, List.cons_append, firstStop_cons (hr _ _),
    firstStop_cons (hr _ _), firstStop_cons (hr _ _), delivered_cons (hr _ _),
    delivered_cons (hr _ _), delivered_cons (hr _ _)]
  exact ⟨(List.append_assoc (b :: chunk) (b' :: chunk') _).symm, rfl⟩

/-- The stream does not show an interruption. -/
theorem follows_interrupted (before rest : List Read) (forever : Option Endless) :
    Follows { reads := before ++ .interrupted :: rest, forever } []
      { reads := before ++ rest, forever } := by
  refine follows_of_reads before 0 1 fun k => ?_
  rw [first_cons, delivered_cons rfl, firstStop_cons rfl]
  exact ⟨rfl, rfl⟩

end Source

/-! ## Loading -/

namespace Memory

variable {m : Memory} {s : Source} {bytes : List UInt8}

theorem load_of_take {taken : Taken} (h : s.take 3585 = some taken) :
    m.load s = some (m.place taken.result, taken.left) := by
  have htake : s.take (maxProgramBytes + 1) = some taken := h
  rw [load, htake]
  rfl

/-- A stream that goes on past what fits is too long, whatever comes after that. -/
theorem load_of_delivers (h : s.Delivers bytes) (hlength : bytes.length = 3585) :
    ∃ left, m.load s = some (.error (.tooLarge 3585 3584), left) ∧ left.Follows bytes s := by
  obtain ⟨left, htake, hfollows⟩ := Source.take_of_delivers h
  rw [hlength] at htake
  refine ⟨left, ?_, hfollows⟩
  have hlong : bytes.length > maxProgramBytes := by
    rw [hlength]
    decide
  rw [load_of_take htake, place, if_pos hlong, hlength]
  rfl

/-- A failure is met if the stream breaks off before the byte that does not fit. -/
theorem load_of_failed {reason : String} (h : s.Stops bytes (.failed reason))
    (hlength : bytes.length ≤ 3584) :
    ∃ left, m.load s = some (.error (.source reason), left) := by
  obtain ⟨left, htake⟩ := Source.take_of_stops h (Nat.lt_succ_of_le hlength)
  exact ⟨left, load_of_take htake⟩

/-- A stream that ends in time is in memory as a whole. -/
theorem load_of_ended (h : s.Stops bytes .ended) (hlength : bytes.length ≤ 3584) :
    ∃ left, m.load s = some (.ok (bytes.length, m.store 0x200 bytes), left) := by
  obtain ⟨left, htake⟩ := Source.take_of_stops h (Nat.lt_succ_of_le hlength)
  have hwhole : Stop.ended.result.map (bytes ++ ·) = .ok bytes :=
    congrArg Except.ok (List.append_nil bytes)
  have hfits : ¬ bytes.length > maxProgramBytes := Nat.not_lt.mpr hlength
  refine ⟨left, ?_⟩
  rw [load_of_take htake, hwhole, place, if_neg hfits]
  rfl

theorem load_eq_none_iff : m.load s = none ↔ s.Stalls 3585 := by
  rw [load, Option.map_eq_none_iff]
  exact Source.take_eq_none_iff

end Memory

namespace Machine

variable {m : Machine} {s s' left : Source}

theorem load_of_error {e : LoadError} (h : m.memory.load s = some (.error e, left)) :
    m.load s = some (.error e, m, left) := by
  rw [load, h]
  rfl

theorem load_of_ok {size : Nat} {memory : Memory}
    (h : m.memory.load s = some (.ok (size, memory), left)) :
    m.load s = some (.ok size, { m with memory }, left) := by
  rw [load, h]
  rfl

/-- What comes of loading is a matter of the bytes that are taken from the source. -/
theorem loadOutcome_eq (m : Machine) (s : Source) :
    m.loadOutcome s = ((s.take 3585).map (·.result)).map fun result =>
      match m.memory.place result with
      | .ok (size, memory) => (.ok size, { m with memory })
      | .error e => (.error e, m) := by
  have htake : s.take (maxProgramBytes + 1) = s.take 3585 := rfl
  rw [loadOutcome, load, Memory.load, htake]
  cases s.take 3585 with
  | none => rfl
  | some taken =>
    simp only [Option.map_some]
    rcases m.memory.place taken.result with e | ⟨size, memory⟩ <;> rfl

/-- Sources with streams that agree as far as the byte that does not fit, and if they stop before
    that in the way they stop, are loaded alike. -/
theorem loadOutcome_congr
    (hdelivers : ∀ bytes : List UInt8, bytes.length ≤ 3585 →
      (s'.Delivers bytes ↔ s.Delivers bytes))
    (hstops : ∀ (bytes : List UInt8) (stop : Stop), bytes.length ≤ 3584 →
      (s'.Stops bytes stop ↔ s.Stops bytes stop)) :
    m.loadOutcome s' = m.loadOutcome s := by
  rw [loadOutcome_eq, loadOutcome_eq, Source.result_congr hdelivers fun bytes stop hlength =>
    hstops bytes stop (Nat.le_of_lt_succ hlength)]

theorem loadOutcome_of_follows (h : s'.Follows [] s) : m.loadOutcome s' = m.loadOutcome s :=
  loadOutcome_congr (fun bytes _ => h.1 bytes) fun bytes stop _ => h.2 bytes stop

/-- **The loader sees a stream of bytes, and reads no further than one byte more than fits.** If the
    stream has a byte after the 3584 that fit, it is too long, and all that follows this byte is
    left in the source. Else, if the stream stops with a failure, so does the loading. Else, if it
    comes to its end, it lies from 0x200 on, with the rest of memory as before. Else the source is
    interrupted for ever, and there is no result. A failed loading changes nothing, and a successful
    one nothing but memory. So sources with streams that agree up to the byte that does not fit are
    loaded alike, and neither the cuts between answers nor interruptions matter. -/
theorem load_sees_stream (m : Machine) (s : Source) :
    ((∃ bytes, s.Delivers bytes ∧ bytes.length = 3585) ∨
      (∃ bytes stop, s.Stops bytes stop ∧ bytes.length ≤ 3584) ∨ s.Stalls 3585) ∧
    (∀ bytes, s.Delivers bytes → bytes.length = 3585 → ∃ left,
      m.load s = some (.error (.tooLarge 3585 3584), m, left) ∧ left.Follows bytes s) ∧
    (∀ bytes reason, s.Stops bytes (.failed reason) → bytes.length ≤ 3584 → ∃ left,
      m.load s = some (.error (.source reason), m, left)) ∧
    (∀ bytes, s.Stops bytes .ended → bytes.length ≤ 3584 → ∃ memory left,
      m.load s = some (.ok bytes.length, { m with memory }, left) ∧
      (∀ i (hi : i < bytes.length), memory.get (0x200 + i) = bytes[i]) ∧
      ∀ addr, addr < 0x200 ∨ 0x200 + bytes.length ≤ addr → memory.get addr = m.memory.get addr) ∧
    (s.Stalls 3585 ↔ m.load s = none) ∧
    (∀ s' : Source,
      (∀ bytes, bytes.length ≤ 3585 → (s'.Delivers bytes ↔ s.Delivers bytes)) →
      (∀ bytes stop, bytes.length ≤ 3584 → (s'.Stops bytes stop ↔ s.Stops bytes stop)) →
      m.loadOutcome s' = m.loadOutcome s) ∧
    (∀ before chunk chunk' rest forever, chunk ≠ [] → chunk' ≠ [] →
      m.loadOutcome { reads := before ++ .bytes (chunk ++ chunk') :: rest, forever } =
        m.loadOutcome { reads := before ++ .bytes chunk :: .bytes chunk' :: rest, forever }) ∧
    ∀ before rest forever,
      m.loadOutcome { reads := before ++ .interrupted :: rest, forever } =
        m.loadOutcome { reads := before ++ rest, forever } := by
  refine ⟨?_, ?_, ?_, ?_, ?_, ?_, ?_, ?_⟩
  · obtain hfills | ⟨bytes, stop, hstop, hlength⟩ | hstalls := s.fills_or_stops_or_stalls 3585
    · exact .inl hfills
    · exact .inr (.inl ⟨bytes, stop, hstop, Nat.le_of_lt_succ hlength⟩)
    · exact .inr (.inr hstalls)
  · intro bytes hbytes hlength
    obtain ⟨left, hload, hfollows⟩ := Memory.load_of_delivers (m := m.memory) hbytes hlength
    exact ⟨left, load_of_error hload, hfollows⟩
  · intro bytes reason hstop hlength
    obtain ⟨left, hload⟩ := Memory.load_of_failed (m := m.memory) hstop hlength
    exact ⟨left, load_of_error hload⟩
  · intro bytes hstop hlength
    obtain ⟨left, hload⟩ := Memory.load_of_ended (m := m.memory) hstop hlength
    refine ⟨_, left, load_of_ok hload, fun i hi => ?_, fun addr haddr =>
      Memory.get_store_of_outside haddr⟩
    have haddr : 0x200 + i < Memory.size := by
      rw [Memory.size]
      omega
    rw [Memory.get_store _ _ _ _ haddr, if_pos (by omega), Nat.add_sub_cancel_left,
      List.getD_eq_getElem?_getD, List.getElem?_eq_getElem hi]
    rfl
  · rw [load, Option.map_eq_none_iff]
    exact Memory.load_eq_none_iff.symm
  · exact fun s' => loadOutcome_congr
  · intro before chunk chunk' rest forever hchunk hchunk'
    exact loadOutcome_of_follows (Source.follows_joined hchunk hchunk' before rest forever)
  · intro before rest forever
    exact loadOutcome_of_follows (Source.follows_interrupted before rest forever)

/-- A short program that arrives in pieces, over a longer one; a program that fits to the byte, with
    a failure after it, which is met; and one that is seven bytes longer than what is taken of it,
    which are left, with the failure after them. -/
theorem edgeOfMemory_decides_failure :
    let m := { Machine.fresh {} 0 with memory := Memory.fresh.store 0x200 [7, 7, 7, 7] }
    let pieces : Source := { reads := [.interrupted, .bytes [1], .interrupted, .bytes [2, 3]] }
    let full (count : Nat) : Source :=
      { reads := [.bytes [1, 2], .interrupted, .bytes (List.replicate count 9), .failed "gone"] }
    (∃ memory left, pieces.Stops [1, 2, 3] .ended ∧
      m.load pieces = some (.ok 3, { m with memory }, left) ∧
      memory.get 0x202 = 3 ∧ memory.get 0x203 = 7) ∧
    (∃ left, (full 3582).Stops ([1, 2] ++ List.replicate 3582 9) (.failed "gone") ∧
      m.load (full 3582) = some (.error (.source "gone"), m, left)) ∧
    ∃ left, (full 3590).Delivers ([1, 2] ++ List.replicate 3583 9) ∧
      m.load (full 3590) = some (.error (.tooLarge 3585 3584), m, left) ∧
      left.Stops (List.replicate 7 9) (.failed "gone") := by
  intro m pieces full
  have hpieces : pieces.Stops [1, 2, 3] .ended := ⟨5, rfl, rfl⟩
  have hfull (count : Nat) :
      (full (count + 1)).Stops ([1, 2] ++ List.replicate (count + 1) 9) (.failed "gone") := by
    refine ⟨4, ?_, rfl⟩
    have hfirst : (full (count + 1)).first 4 = (full (count + 1)).reads := rfl
    have hnine : (Read.bytes (List.replicate (count + 1) 9)).stop? = none := rfl
    rw [hfirst, delivered_cons rfl, delivered_cons rfl, delivered_cons hnine, delivered_of_stop rfl,
      List.append_nil]
    rfl
  have hlength (count : Nat) : ([1, 2] ++ List.replicate count (9 : UInt8)).length = 2 + count := by
    rw [List.length_append, List.length_replicate]
    rfl
  have hlonger : [1, 2] ++ List.replicate 3583 9 ++ List.replicate 7 9 =
      [1, 2] ++ List.replicate 3590 (9 : UInt8) := by
    rw [List.append_assoc, List.replicate_append_replicate]
  have hdelivers : (full 3590).Delivers ([1, 2] ++ List.replicate 3583 9) :=
    (hfull 3589).delivers.of_prefix ⟨_, hlonger⟩
  obtain ⟨-, -, -, hended, -⟩ := load_sees_stream m pieces
  obtain ⟨memory, left, hload, hbytes, hrest⟩ := hended _ hpieces (by decide)
  have hkept : memory.get 0x203 = 7 :=
    (hrest 0x203 (.inr (Nat.le_refl _))).trans (by decide +kernel)
  refine ⟨⟨memory, left, hpieces, hload, hbytes 2 (by decide), hkept⟩, ?_, ?_⟩
  · obtain ⟨-, -, hfailed, -⟩ := load_sees_stream m (full 3582)
    obtain ⟨left, hload⟩ := hfailed _ "gone" (hfull 3581) (Nat.le_of_eq (hlength 3582))
    exact ⟨left, hfull 3581, hload⟩
  · obtain ⟨-, hlong, -⟩ := load_sees_stream m (full 3590)
    obtain ⟨left, hload, hfollows⟩ := hlong _ hdelivers (hlength 3583)
    refine ⟨left, hdelivers, hload, (hfollows.2 _ _).mpr ?_⟩
    rw [hlonger]
    exact hfull 3589

/-- A source that is interrupted for ever delivers nothing, and no other failure comes, but no
    program is ever loaded, not even an empty one. -/
theorem interruptedForever_is_not_loaded :
    let s : Source := { reads := [], forever := some { answer := fun _ => .interrupted } }
    (∀ bytes, s.Delivers bytes → bytes = []) ∧ (∀ bytes reason, ¬ s.Stops bytes (.failed reason)) ∧
    ¬ ∃ size machine left, (Machine.fresh {} 0).load s = some (.ok size, machine, left) := by
  intro s
  have hnothing (k : Nat) : delivered (s.first k) = [] ∧ firstStop (s.first k) = none := by
    induction k with
    | zero => exact ⟨rfl, rfl⟩
    | succ k ih =>
      rw [Source.first_succ_last, delivered_append ih.2, firstStop_append, ih.1, ih.2]
      exact ⟨rfl, rfl⟩
  refine ⟨?_, ?_, ?_⟩
  · rintro bytes ⟨k, hk⟩
    rw [(hnothing k).1] at hk
    exact List.prefix_nil.mp hk
  · rintro bytes reason ⟨k, -, hstop⟩
    cases (hnothing k).2.symm.trans hstop
  · rintro ⟨size, machine, left, hload⟩
    have hnone : (Machine.fresh {} 0).load s = none :=
      Option.map_eq_none_iff.mpr (Memory.load_eq_none_iff.mpr ⟨0, rfl, by decide, fun _ _ => rfl⟩)
    cases hnone.symm.trans hload

end Machine

end Chip8
