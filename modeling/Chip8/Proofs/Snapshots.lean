import Chip8.Keypad
import Mathlib.Data.List.Forall2

set_option autoImplicit false

/-! # Snapshots of key lists

A keypad is told of the keys held by a list of bytes, and makes a snapshot of it against the one
before. All that a snapshot keeps of its list is which keys below sixteen occur in it
(`Keypad.Shows`). So what the next snapshot takes for news is a key that the list before does not
have, and neither the order of a list nor what it repeats can be seen in what is held, or in whether
there is news.

The keys held fit in a word with a bit for each of them. Setting the bits passes over bytes of
sixteen and above, whereas a question about a byte is answered for its low digit; the word gives the
same answers as the list because that digit is always below sixteen (`Keypad.isPressed_eq_mask`). -/

namespace Chip8

/-! ## Keys in a word -/

/-- The bit of a key in a word. -/
def keyBit (key : UInt8) : UInt16 := 1 <<< key.toUInt16

/-- The word with a bit set for each listed key, passing over what is not a key. -/
def keyMask (keys : List UInt8) : UInt16 :=
  (keys.filter (· < 16)).foldl (fun mask key => mask ||| keyBit key) 0

theorem toBitVec_keyBit {key : UInt8} (hkey : key.toNat < 16) :
    (keyBit key).toBitVec = BitVec.twoPow 16 key.toNat := by
  have hbit : ∀ i : Fin 16, (keyBit (UInt8.ofNat i)).toBitVec = BitVec.twoPow 16 i := by decide
  simpa using hbit ⟨key.toNat, hkey⟩

theorem getLsbD_foldl_keyBit (keys : List UInt8) (mask : UInt16) {i : Nat} (hi : i < 16) :
    ((keys.filter (· < 16)).foldl (fun mask key => mask ||| keyBit key) mask).toBitVec.getLsbD i =
      (mask.toBitVec.getLsbD i || keys.any fun key => key.toNat == i) := by
  induction keys generalizing mask with
  | nil => simp
  | cons key rest ih =>
    by_cases hkey : key < 16
    · have hlt : key.toNat < 16 := UInt8.lt_iff_toNat_lt.mp hkey
      rw [List.filter_cons_of_pos (by simpa using hkey), List.foldl_cons, ih, UInt16.toBitVec_or,
        BitVec.getLsbD_or, toBitVec_keyBit hlt, BitVec.getLsbD_twoPow, List.any_cons, Bool.or_assoc]
      simp [hi, hlt, beq_eq_decide]
    · have hne : (key.toNat == i) = false := by
        rw [UInt8.lt_iff_toNat_lt] at hkey
        have hne : key.toNat ≠ i := fun h => hkey (h ▸ hi)
        simpa using hne
      rw [List.filter_cons_of_neg (by simpa using hkey), ih, List.any_cons, hne, Bool.false_or]

/-- Testing a word for the bit of the low digit of a byte reads that bit. -/
theorem and_keyBit_ne_zero (mask : UInt16) (b : UInt8) :
    (mask &&& keyBit (b &&& 0xf) != 0) = mask.toBitVec.getLsbD (b.toNat % 16) := by
  have hlow : (b &&& 0xf).toNat = b.toNat % 16 := by
    rw [UInt8.toNat_and]
    exact Nat.and_two_pow_sub_one_eq_mod b.toNat 4
  have hlt : b.toNat % 16 < 16 := Nat.mod_lt _ (by decide)
  have hbit : BitVec.twoPow 16 (b.toNat % 16) ≠ 0#16 := by
    intro hzero
    have := congrArg (·.getLsbD (b.toNat % 16)) hzero
    simp [hlt] at this
  have hword : (mask &&& keyBit (b &&& 0xf)).toBitVec =
      if mask.toBitVec.getLsbD (b.toNat % 16) then BitVec.twoPow 16 (b.toNat % 16) else 0#16 := by
    rw [UInt16.toBitVec_and, toBitVec_keyBit (by rw [hlow]; exact hlt), hlow, BitVec.and_twoPow]
  have hzero : mask &&& keyBit (b &&& 0xf) = 0 ↔ (mask &&& keyBit (b &&& 0xf)).toBitVec = 0#16 :=
    UInt16.toBitVec_inj.symm
  rw [Bool.eq_iff_iff, bne_iff_ne, ne_eq, hzero, hword]
  cases mask.toBitVec.getLsbD (b.toNat % 16) <;> simp [hbit]

namespace Keypad

/-- The word made of a list answers a question about a byte as the snapshot of the list does. -/
theorem isPressed_eq_mask (keys : List UInt8) (previous : Keypad) (b : UInt8) :
    (ofKeys keys previous).isPressed b = (keyMask keys &&& keyBit (b &&& 0xf) != 0) := by
  have hlt : b.toNat % 16 < 16 := Nat.mod_lt _ (by decide)
  rw [isPressed_ofKeys, and_keyBit_ne_zero, keyMask, getLsbD_foldl_keyBit keys 0 hlt]
  simp

/-! ## What a snapshot shows of its list -/

/-- The keys held are those that are listed. -/
def Shows (k : Keypad) (keys : List UInt8) : Prop :=
  ∀ key, key < 16 → (k.isPressed key = true ↔ key ∈ keys)

theorem idle_shows : idle.Shows [] := by
  intro key _
  simp [isPressed, idle]

theorem ofKeys_shows (keys : List UInt8) (previous : Keypad) :
    (ofKeys keys previous).Shows keys :=
  fun _ hkey => isPressed_iff_mem hkey

/-- What is held depends only on what the list has. -/
theorem held_ofKeys_eq {keys keys' : List UInt8} (hsame : ∀ b, b ∈ keys ↔ b ∈ keys')
    (previous previous' : Keypad) :
    (ofKeys keys previous).held = (ofKeys keys' previous').held := by
  have hany (i : Nat) : (keys.any fun k => k.toNat == i) = keys'.any fun k => k.toNat == i := by
    rw [Bool.eq_iff_iff, List.any_eq_true, List.any_eq_true]
    simp only [hsame]
  simp only [ofKeys, hany]

section News

variable {previous previous' : Keypad} {before keys keys' : List UInt8}

theorem Shows.isNews_eq (h : previous.Shows before) (key : UInt8) :
    previous.isNews key = decide (key < 16 ∧ key ∉ before) := by
  by_cases hkey : key < 16
  · simp [isNews, hkey, ← h key hkey]
  · simp [isNews, hkey]

/-- News is the first key of the list that was not in the list before. -/
theorem Shows.newlyPressed_ofKeys (h : previous.Shows before) (keys : List UInt8) :
    (ofKeys keys previous).newlyPressed = keys.find? fun key => key < 16 ∧ key ∉ before := by
  simp only [ofKeys, funext h.isNews_eq]

theorem isNews_eq_of_held (hheld : previous.held = previous'.held) :
    previous.isNews = previous'.isNews := by
  funext key
  simp only [isNews, isPressed, hheld]

/-- Whether there is news depends only on what the list has. -/
theorem newlyPressed_ofKeys_eq_none_iff (hsame : ∀ b, b ∈ keys ↔ b ∈ keys')
    (hheld : previous.held = previous'.held) :
    (ofKeys keys previous).newlyPressed = none ↔ (ofKeys keys' previous').newlyPressed = none := by
  simp only [ofKeys, List.find?_eq_none, hsame, isNews_eq_of_held hheld]

end News

/-! ## One snapshot after another -/

/-- The snapshots made of the lists, each against the one before, the first against `previous`. -/
def snapshots (previous : Keypad) : List (List UInt8) → List Keypad
  | [] => []
  | keys :: later => ofKeys keys previous :: (ofKeys keys previous).snapshots later

/-- How often the key is in a list and not in the one before, where `before` is the list before the
    first. -/
def arrivals (key : UInt8) (before : List UInt8) : List (List UInt8) → Nat
  | [] => 0
  | keys :: later => (if key ∈ keys ∧ key ∉ before then 1 else 0) + arrivals key keys later

/-- The snapshot of a list is made against one that shows the list before. -/
theorem Shows.snapshots_getElem? {previous : Keypad} {start : List UInt8}
    (h : previous.Shows start) (before : List (List UInt8)) (keys : List UInt8)
    (later : List (List UInt8)) :
    ∃ k : Keypad, k.Shows (before.getLast?.getD start) ∧
      (previous.snapshots (before ++ keys :: later))[before.length]? = some (ofKeys keys k) := by
  induction before generalizing previous start with
  | nil => exact ⟨previous, h, rfl⟩
  | cons first rest ih =>
    obtain ⟨k, hshows, hk⟩ := ih (ofKeys_shows first previous)
    refine ⟨k, ?_, ?_⟩
    · rw [List.getLast?_cons]
      exact hshows
    · rw [List.cons_append, snapshots, List.length_cons, List.getElem?_cons_succ]
      exact hk

theorem snapshots_alike {lists lists' : List (List UInt8)}
    (hsame : List.Forall₂ (fun keys keys' => ∀ b, b ∈ keys ↔ b ∈ keys') lists lists')
    {previous previous' : Keypad} (hheld : previous.held = previous'.held) :
    List.Forall₂ (fun k k' => k.held = k'.held ∧ (k.newlyPressed = none ↔ k'.newlyPressed = none))
      (previous.snapshots lists) (previous'.snapshots lists') := by
  induction hsame generalizing previous previous' with
  | nil => exact .nil
  | cons hkeys _ ih =>
    have hnext := held_ofKeys_eq hkeys previous previous'
    exact .cons ⟨hnext, newlyPressed_ofKeys_eq_none_iff hkeys hheld⟩ (ih hnext)

theorem Shows.count_newlyPressed_le {previous : Keypad} {before : List UInt8}
    (h : previous.Shows before) (key : UInt8) (lists : List (List UInt8)) :
    ((previous.snapshots lists).map (·.newlyPressed)).count (some key) ≤
      arrivals key before lists := by
  induction lists generalizing previous before with
  | nil => exact Nat.le_refl _
  | cons keys later ih =>
    have hlater := ih (ofKeys_shows keys previous)
    -- a key that is reported is in its list and was not in the one before
    have hfirst : (ofKeys keys previous).newlyPressed = some key → key ∈ keys ∧ key ∉ before := by
      intro hkey
      rw [h.newlyPressed_ofKeys] at hkey
      have hnews := List.find?_some hkey
      exact ⟨List.mem_of_find?_eq_some hkey, (of_decide_eq_true hnews).2⟩
    rw [snapshots, List.map_cons, List.count_cons, arrivals, Nat.add_comm]
    refine Nat.add_le_add ?_ hlater
    split_ifs with hreported harrived
    · exact Nat.le_refl _
    · exact absurd (hfirst (beq_iff_eq.mp hreported)) harrived
    · exact Nat.zero_le _
    · exact Nat.le_refl _

/-- Whatever lists of bytes a keypad is told of, each snapshot has the key of a byte's low digit
    held iff its list has that digit, and names as news the first key of its list that the list
    before does not have. Other lists with the same bytes, in another order and repeated otherwise,
    have the same keys held at every snapshot and news at the same ones. No key is named more often
    than it comes up in a list after one that does not have it. -/
theorem snapshots_follow_lists (lists : List (List UInt8)) :
    (∀ before keys later, lists = before ++ keys :: later →
      ∃ k : Keypad, (idle.snapshots lists)[before.length]? = some k ∧
        (∀ b : UInt8, k.isPressed b = true ↔ b % 16 ∈ keys) ∧
        (∀ b : UInt8, k.isPressed b = (keyMask keys &&& keyBit (b &&& 0xf) != 0)) ∧
        (k.newlyPressed = keys.find? fun key => key < 16 ∧ key ∉ before.getLast?.getD []) ∧
        (k.newlyPressed = none ↔ ∀ key ∈ keys, key < 16 → key ∈ before.getLast?.getD [])) ∧
    (∀ lists', List.Forall₂ (fun keys keys' => ∀ b, b ∈ keys ↔ b ∈ keys') lists lists' →
      List.Forall₂ (fun k k' => k.held = k'.held ∧ (k.newlyPressed = none ↔ k'.newlyPressed = none))
        (idle.snapshots lists) (idle.snapshots lists')) ∧
    (∀ key, ((idle.snapshots lists).map (·.newlyPressed)).count (some key) ≤
      arrivals key [] lists) := by
  refine ⟨?_, fun _ hsame => snapshots_alike hsame rfl,
    fun key => idle_shows.count_newlyPressed_le key lists⟩
  rintro before keys later rfl
  obtain ⟨k, hshows, hk⟩ := idle_shows.snapshots_getElem? before keys later
  have hnews := hshows.newlyPressed_ofKeys keys
  refine ⟨ofKeys keys k, hk, fun _ => isPressed_iff_lowDigit_mem, isPressed_eq_mask keys k, hnews,
    ?_⟩
  rw [hnews, List.find?_eq_none]
  simp

/-- A byte above fifteen does not press the key of its low digit, lists with the same bytes hold the
    same keys, and a key that stays listed is named once. -/
theorem seven_is_news_once :
    let lists : List (List UInt8) := [[0x11, 3], [3, 0x15, 7, 7], [7]]
    let lists' : List (List UInt8) := [[3, 3, 0x11], [7, 0x15, 3], [7, 7]]
    (∃ k : Keypad, (idle.snapshots lists)[1]? = some k ∧ k.isPressed 0x17 = true ∧
      ¬ k.isPressed 5 = true ∧ k.newlyPressed = some 7) ∧
    List.Forall₂ (fun k k' => k.held = k'.held ∧ (k.newlyPressed = none ↔ k'.newlyPressed = none))
      (idle.snapshots lists) (idle.snapshots lists') ∧
    ((idle.snapshots lists).map (·.newlyPressed)).count (some 7) ≤ 1 := by
  intro lists lists'
  obtain ⟨hshot, halike, hcount⟩ := snapshots_follow_lists lists
  refine ⟨?_, halike lists' ?_, hcount 7⟩
  · obtain ⟨k, hk, hheld, -, hnews, -⟩ := hshot [[0x11, 3]] [3, 0x15, 7, 7] [[7]] rfl
    refine ⟨k, hk, (hheld 0x17).mpr (by decide), fun h => ?_, hnews⟩
    exact absurd ((hheld 5).mp h) (by decide)
  · refine .cons (fun b => ?_) (.cons (fun b => ?_) (.cons (fun b => ?_) .nil))
    · simp [or_comm]
    · simp [or_left_comm, or_comm]
    · simp

end Keypad

end Chip8
