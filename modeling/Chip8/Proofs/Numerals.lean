import Chip8.Text.Numeral
import Mathlib.Algebra.Group.Nat.Defs
import Mathlib.Data.List.TakeWhile

set_option autoImplicit false

/-! # Numbers in a text

A number is written with as many digits as it needs, and with zeros in front if these are too few,
so its length does not tell where it ends. But it consists of digits and small letters, and what
stands behind it in a text begins with something else. So the end of a number is plain to see
(`Plain.append_inj`), and the number can be read back from its digits (`readDigits_hexDigits`,
`readDigits_toDigits`). It follows that a text of labels with a number behind each gives back every
one of its numbers (`fieldsText_inj`). -/

namespace Chip8.Numeral

/-! ## Reading digits -/

/-- The value of a digit in base ten or sixteen, lower case. -/
def digitValue (c : Char) : Nat := if c.isDigit then c.toNat - 48 else c.toNat - 87

theorem digitValue_digitChar : ∀ d < 16, digitValue (Nat.digitChar d) = d := by decide

/-- The number with the given digits. -/
def readDigits (base : Nat) (digits : List Char) : Nat :=
  digits.foldl (fun n c => base * n + digitValue c) 0

theorem readDigits_append_singleton (base : Nat) (digits : List Char) (c : Char) :
    readDigits base (digits ++ [c]) = base * readDigits base digits + digitValue c := by
  simp [readDigits]

theorem readDigits_toDigits {base : Nat} (hone : 1 < base) (hbase : base ≤ 16) (n : Nat) :
    readDigits base (Nat.toDigits base n) = n := by
  induction n using Nat.strongRecOn with
  | ind n ih =>
    rw [Nat.toDigits_eq_if hone]
    split_ifs with hlt
    · simp [readDigits, digitValue_digitChar n (by omega)]
    · have hdigit : n % base < 16 := (Nat.mod_lt n (by omega)).trans_le hbase
      rw [readDigits_append_singleton, ih _ (Nat.div_lt_self (by omega) hone),
        digitValue_digitChar _ hdigit, Nat.div_add_mod]

/-- Zeros in front do not count. -/
theorem readDigits_replicate_zero_append (base count : Nat) (digits : List Char) :
    readDigits base (List.replicate count '0' ++ digits) = readDigits base digits := by
  induction count with
  | zero => rfl
  | succ count ih => exact ih

theorem readDigits_hexDigits (width n : Nat) : readDigits 16 (hexDigits width n) = n := by
  rw [hexDigits, List.leftpad, readDigits_replicate_zero_append]
  exact readDigits_toDigits (by decide) (by decide) n

theorem hexDigits_inj {width m n : Nat} : hexDigits width m = hexDigits width n ↔ m = n := by
  refine ⟨fun h => ?_, fun h => h ▸ rfl⟩
  rw [← readDigits_hexDigits width m, h, readDigits_hexDigits]

theorem toDigits_inj {base m n : Nat} (hone : 1 < base) (hbase : base ≤ 16) :
    Nat.toDigits base m = Nat.toDigits base n ↔ m = n := by
  refine ⟨fun h => ?_, fun h => h ▸ rfl⟩
  rw [← readDigits_toDigits hone hbase m, h, readDigits_toDigits hone hbase]

/-- A number for which the least number of digits is enough has just as many. -/
theorem length_hexDigits_of_lt (width : Nat) {n : Nat} (hpos : 0 < width) (h : n < 16 ^ width) :
    (hexDigits width n).length = width := by
  rw [length_hexDigits]
  exact Nat.max_eq_left ((Nat.length_toDigits_le_iff (by decide) hpos).mpr h)

/-! ## Where a number ends -/

/-- Are there only letters and digits in the text? -/
def Plain (text : List Char) : Prop := ∀ c ∈ text, c.isAlphanum = true

/-- Does the text begin with something else than a letter or a digit, if with anything? -/
def Apart (text : List Char) : Prop := ∀ c ∈ text.head?, c.isAlphanum = false

theorem apart_nil : Apart [] := nofun

theorem apart_cons {c : Char} {text : List Char} (h : c.isAlphanum = false) :
    Apart (c :: text) := by
  simpa [Apart] using h

theorem plain_toDigits {base : Nat} (hone : 1 < base) (hbase : base ≤ 16) (n : Nat) :
    Plain (Nat.toDigits base n) := by
  have hdigit : ∀ d < 16, (Nat.digitChar d).isAlphanum = true := by decide
  induction n using Nat.strongRecOn with
  | ind n ih =>
    intro c hc
    rw [Nat.toDigits_eq_if hone] at hc
    split_ifs at hc with hlt
    · rw [List.mem_singleton.mp hc]
      exact hdigit n (by omega)
    · rcases List.mem_append.mp hc with hc | hc
      · exact ih _ (Nat.div_lt_self (by omega) hone) c hc
      · rw [List.mem_singleton.mp hc]
        exact hdigit _ ((Nat.mod_lt n (by omega)).trans_le hbase)

theorem plain_hexDigits (width n : Nat) : Plain (hexDigits width n) := by
  intro c hc
  rw [hexDigits, List.leftpad, List.mem_append] at hc
  rcases hc with hc | hc
  · rw [List.eq_of_mem_replicate hc]
    decide
  · exact plain_toDigits (by decide) (by decide) n c hc

/-- A plain text ends where something else begins. -/
theorem Plain.append_inj {text text' rest rest' : List Char} (h : Plain text) (h' : Plain text')
    (hrest : Apart rest) (hrest' : Apart rest') (hsame : text ++ rest = text' ++ rest') :
    text = text' ∧ rest = rest' := by
  have htake {text rest : List Char} (h : Plain text) (hrest : Apart rest) :
      (text ++ rest).takeWhile Char.isAlphanum = text := by
    rw [List.takeWhile_append_of_pos h]
    cases rest with
    | nil => simp
    | cons c rest => simp [hrest c rfl]
  have htext : text = text' := by rw [← htake h hrest, hsame, htake h' hrest']
  subst htext
  exact ⟨rfl, List.append_cancel_left hsame⟩

section

variable {rest rest' : List Char} (hrest : Apart rest) (hrest' : Apart rest')
include hrest hrest'

theorem hexDigits_append_inj {width m n : Nat}
    (hsame : hexDigits width m ++ rest = hexDigits width n ++ rest') : m = n ∧ rest = rest' := by
  obtain ⟨hdigits, hbehind⟩ :=
    (plain_hexDigits width m).append_inj (plain_hexDigits width n) hrest hrest' hsame
  exact ⟨hexDigits_inj.mp hdigits, hbehind⟩

theorem toDigits_append_inj {base m n : Nat} (hone : 1 < base) (hbase : base ≤ 16)
    (hsame : Nat.toDigits base m ++ rest = Nat.toDigits base n ++ rest') :
    m = n ∧ rest = rest' := by
  obtain ⟨hdigits, hbehind⟩ :=
    (plain_toDigits hone hbase m).append_inj (plain_toDigits hone hbase n) hrest hrest' hsame
  exact ⟨(toDigits_inj hone hbase).mp hdigits, hbehind⟩

end

/-! ## Labels and numbers -/

/-- The text of some numbers, each with a label in front of its digits. -/
def fieldsText (fields : List (String × List Char)) : List Char :=
  fields.flatMap fun field => field.1.toList ++ field.2

theorem fieldsText_append (fields more : List (String × List Char)) :
    fieldsText (fields ++ more) = fieldsText fields ++ fieldsText more :=
  List.flatMap_append

/-- Are the numbers plain, and does each label begin with something else? -/
def Legible (fields : List (String × List Char)) : Prop :=
  ∀ field ∈ fields, (∃ c ∈ field.1.toList.head?, c.isAlphanum = false) ∧ Plain field.2

theorem Legible.append {fields more : List (String × List Char)} (h : Legible fields)
    (hmore : Legible more) : Legible (fields ++ more) :=
  fun field hfield => (List.mem_append.mp hfield).elim (h field) (hmore field)

theorem apart_fieldsText {fields : List (String × List Char)} (h : Legible fields)
    {rest : List Char} (hrest : Apart rest) : Apart (fieldsText fields ++ rest) := by
  cases fields with
  | nil => exact hrest
  | cons field fields =>
    obtain ⟨⟨c, hc, hmark⟩, -⟩ := h field List.mem_cons_self
    obtain ⟨label, hlabel⟩ := List.head?_eq_some_iff.mp hc
    rw [fieldsText, List.flatMap_cons, hlabel]
    exact apart_cons hmark

/-- Texts with the same labels, followed by something else than a number, are the same only if they
    have the same numbers. -/
theorem fieldsText_inj {fields fields' : List (String × List Char)} {rest rest' : List Char}
    (hlabels : fields.map Prod.fst = fields'.map Prod.fst) (h : Legible fields)
    (h' : Legible fields') (hrest : Apart rest) (hrest' : Apart rest')
    (hsame : fieldsText fields ++ rest = fieldsText fields' ++ rest') :
    fields = fields' ∧ rest = rest' := by
  induction fields generalizing fields' with
  | nil =>
    obtain rfl : fields' = [] := by simpa using hlabels.symm
    exact ⟨rfl, hsame⟩
  | cons field fields ih =>
    cases fields' with
    | nil => simp at hlabels
    | cons field' fields' =>
      obtain ⟨label, digits⟩ := field
      obtain ⟨label', digits'⟩ := field'
      simp only [List.map_cons, List.cons.injEq] at hlabels
      obtain ⟨rfl, hlabels⟩ := hlabels
      have hfields : Legible fields := fun f hf => h f (List.mem_cons_of_mem _ hf)
      have hfields' : Legible fields' := fun f hf => h' f (List.mem_cons_of_mem _ hf)
      simp only [fieldsText, List.flatMap_cons, List.append_assoc] at hsame
      obtain ⟨rfl, hbehind⟩ := (h _ List.mem_cons_self).2.append_inj
        (h' _ List.mem_cons_self).2 (apart_fieldsText hfields hrest)
        (apart_fieldsText hfields' hrest') (List.append_cancel_left hsame)
      obtain ⟨rfl, hend⟩ := ih hlabels hfields hfields' hbehind
      exact ⟨rfl, hend⟩

end Chip8.Numeral
