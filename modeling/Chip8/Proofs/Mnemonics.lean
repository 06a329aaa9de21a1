import Chip8.Proofs.Numerals
import Chip8.Proofs.Patterns

set_option autoImplicit false

/-! # Reading mnemonics

A mnemonic is a name with its operands behind it. Names are shared: eleven instructions are called
LD, and what each of them does shows in its operands only. But neither a name nor an operand has a
blank or a comma in it, so a mnemonic falls into the same pieces that it was put together from
(`pieces_line`). An operand can be told by how it begins and, if it is a number in base sixteen,
by how many digits it has (`Operand.read?_text`), and no two instructions have the same name and
operands (`Instruction.ofAssembly?_assembly`). So a mnemonic can be read back. -/

namespace Chip8

open Numeral (digit hexDigits readDigits)

/-! ## Operands -/

/-- An operand of a mnemonic. -/
inductive Operand where
  | register (x : Fin 16)
  | immediate (nn : UInt8)
  | address (addr : UInt16)
  | word (w : Word)
  /-- The height of a sprite. -/
  | rows (n : Fin 16)
  /-- The index register. -/
  | index
  /-- The memory that the index register points to. -/
  | memory
  | delay
  | sound
  | key
  /-- The glyph of a digit. -/
  | glyph
  /-- The digits in base ten. -/
  | digits
  deriving DecidableEq

namespace Operand

/-- The operand as it is written. -/
def text : Operand → List Char
  | register x => ['V', digit x]
  | immediate nn => '0' :: 'x' :: hexDigits 2 nn.toNat
  | address addr => '0' :: 'x' :: hexDigits 3 addr.toNat
  | word w => '0' :: 'x' :: hexDigits 4 w.toNat
  | rows n => Nat.toDigits 10 n.val
  | index => ['I']
  | memory => ['[', 'I', ']']
  | delay => ['D', 'T']
  | sound => ['S', 'T']
  | key => ['K']
  | glyph => ['F']
  | digits => ['B']

/-- The operands that are not written in base sixteen. -/
def named : List Operand :=
  (List.finRange 16).map register ++ (List.finRange 16).map rows ++
    [index, memory, delay, sound, key, glyph, digits]

/-- Reads an operand. A number in base sixteen is told by its number of digits. -/
def read? : List Char → Option Operand
  | '0' :: 'x' :: ds =>
    match ds.length with
    | 2 => some (immediate (UInt8.ofNat (readDigits 16 ds)))
    | 3 => some (address (UInt16.ofNat (readDigits 16 ds)))
    | 4 => some (word (UInt16.ofNat (readDigits 16 ds)))
    | _ => none
  | chars => named.find? (·.text = chars)

/-- Has the operand room in its digits? -/
def Fits : Operand → Prop
  | address addr => addr.toNat < 4096
  | _ => True

theorem read?_text_of_named : ∀ o ∈ named, read? o.text = some o := by decide

/-- An operand is read back from what is written for it. -/
theorem read?_text {o : Operand} (h : o.Fits) : read? o.text = some o := by
  cases o
  case immediate nn =>
    have hlength := Numeral.length_hexDigits_of_lt 2 (by decide) nn.toNat_lt
    simp [text, read?, hlength, Numeral.readDigits_hexDigits]
  case address addr =>
    have hlength := Numeral.length_hexDigits_of_lt 3 (by decide) h
    simp [text, read?, hlength, Numeral.readDigits_hexDigits]
  case word w =>
    have hlength := Numeral.length_hexDigits_of_lt 4 (by decide) w.toNat_lt
    simp [text, read?, hlength, Numeral.readDigits_hexDigits]
  -- all the others are finitely many
  all_goals exact read?_text_of_named _ (by simp [named])

theorem mapM_read?_text {operands : List Operand} (h : ∀ o ∈ operands, o.Fits) :
    (operands.map text).mapM read? = some operands := by
  induction operands with
  | nil => rfl
  | cons o rest ih =>
    have hfirst := read?_text (h o List.mem_cons_self)
    have hrest := ih fun o ho => h o (List.mem_cons_of_mem _ ho)
    simp [hfirst, hrest]

end Operand

/-! ## Pieces of a line -/

/-- Is there neither a blank nor a comma in the text? -/
def Solid (text : List Char) : Prop := ' ' ∉ text ∧ ',' ∉ text

instance (text : List Char) : Decidable (Solid text) := inferInstanceAs (Decidable (_ ∧ _))

theorem solid_of_plain {text : List Char} (h : Numeral.Plain text) : Solid text :=
  ⟨fun hblank => absurd (h _ hblank) (by decide), fun hcomma => absurd (h _ hcomma) (by decide)⟩

theorem Operand.solid_text_of_named : ∀ o ∈ Operand.named, Solid o.text := by decide

theorem Operand.solid_text (o : Operand) : Solid o.text := by
  have hnumber {width n : Nat} : Numeral.Plain ('0' :: 'x' :: hexDigits width n) :=
    List.forall_mem_cons.mpr ⟨by decide,
      List.forall_mem_cons.mpr ⟨by decide, Numeral.plain_hexDigits width n⟩⟩
  cases o
  case immediate | address | word => exact solid_of_plain hnumber
  all_goals exact solid_text_of_named _ (by simp [named])

/-- A name with operands behind it: a blank before the first one, a comma and a blank before the
    others. -/
def line (name : List Char) : List (List Char) → List Char
  | [] => name
  | operands => name ++ ' ' :: [',', ' '].intercalate operands

/-- The pieces that a line falls into at the blanks, without its commas. -/
def pieces (text : List Char) : List (List Char) := (text.filter (· ≠ ',')).splitOn ' '

theorem filter_of_solid {text : List Char} (h : Solid text) : text.filter (· ≠ ',') = text :=
  List.filter_eq_self.mpr fun c hc => by
    simp only [ne_eq, decide_not, Bool.not_eq_true', decide_eq_false_iff_not]
    exact fun hcomma => h.2 (hcomma ▸ hc)

theorem filter_intercalate {texts : List (List Char)} (h : ∀ text ∈ texts, Solid text) :
    ([',', ' '].intercalate texts).filter (· ≠ ',') = [' '].intercalate texts := by
  induction texts with
  | nil => rfl
  | cons first rest ih =>
    have hfirst := filter_of_solid (h first List.mem_cons_self)
    have hrest := ih fun text htext => h text (List.mem_cons_of_mem _ htext)
    cases rest with
    | nil => simpa using hfirst
    | cons second rest =>
      -- the comma behind the first text goes, the blank behind the comma stays
      rw [List.intercalate_cons_cons, List.intercalate_cons_cons, List.filter_append,
        List.filter_append, hfirst, hrest]
      rfl

/-- A line falls into the name and the operands that it was put together from. -/
theorem pieces_line {name : List Char} {operands : List (List Char)} (hname : Solid name)
    (h : ∀ text ∈ operands, Solid text) : pieces (line name operands) = name :: operands := by
  have hsolid : ∀ text ∈ name :: operands, Solid text := List.forall_mem_cons.mpr ⟨hname, h⟩
  have hfilter : (line name operands).filter (· ≠ ',') = [' '].intercalate (name :: operands) := by
    cases operands with
    | nil => simpa [line] using filter_of_solid hname
    | cons first rest =>
      rw [line, List.filter_append, filter_of_solid hname, List.filter_cons_of_pos (by decide),
        filter_intercalate h, List.intercalate_cons_cons, List.append_assoc]
      · rfl
      · exact List.cons_ne_nil _ _
  rw [pieces, hfilter]
  exact List.splitOn_intercalate ' ' (fun text htext => (hsolid text htext).1)
    (List.cons_ne_nil _ _)

/-! ## Instructions in pieces -/

namespace Instruction

/-- The name that the mnemonic of an instruction begins with, and its operands. -/
def assembly : Instruction → String × List Operand
  | .clearScreen => ("CLS", [])
  | .ret => ("RET", [])
  | .machineCall addr => ("SYS", [.address addr])
  | .jump addr => ("JP", [.address addr])
  | .call addr => ("CALL", [.address addr])
  | .skipEqImm x nn => ("SE", [.register x, .immediate nn])
  | .skipNeImm x nn => ("SNE", [.register x, .immediate nn])
  | .skipEqReg x y => ("SE", [.register x, .register y])
  | .loadImm x nn => ("LD", [.register x, .immediate nn])
  | .addImm x nn => ("ADD", [.register x, .immediate nn])
  | .move x y => ("LD", [.register x, .register y])
  | .or x y => ("OR", [.register x, .register y])
  | .and x y => ("AND", [.register x, .register y])
  | .xor x y => ("XOR", [.register x, .register y])
  | .addReg x y => ("ADD", [.register x, .register y])
  | .subReg x y => ("SUB", [.register x, .register y])
  | .shiftRight x y => ("SHR", [.register x, .register y])
  | .subReverse x y => ("SUBN", [.register x, .register y])
  | .shiftLeft x y => ("SHL", [.register x, .register y])
  | .skipNeReg x y => ("SNE", [.register x, .register y])
  | .loadIndex addr => ("LD", [.index, .address addr])
  | .jumpOffset addr => ("JP", [.register 0, .address addr])
  | .random x nn => ("RND", [.register x, .immediate nn])
  | .draw x y n => ("DRW", [.register x, .register y, .rows n])
  | .skipKeyPressed x => ("SKP", [.register x])
  | .skipKeyReleased x => ("SKNP", [.register x])
  | .getDelay x => ("LD", [.register x, .delay])
  | .waitKey x => ("LD", [.register x, .key])
  | .setDelay x => ("LD", [.delay, .register x])
  | .setSound x => ("LD", [.sound, .register x])
  | .addIndex x => ("ADD", [.index, .register x])
  | .fontGlyph x => ("LD", [.glyph, .register x])
  | .storeBcd x => ("LD", [.digits, .register x])
  | .storeRegs x => ("LD", [.memory, .register x])
  | .loadRegs x => ("LD", [.register x, .memory])
  | .unknown w => ("???", [.word w])

/-- The instruction with the given name and operands. -/
def ofAssembly? : String → List Operand → Option Instruction
  | "CLS", [] => some .clearScreen
  | "RET", [] => some .ret
  | "SYS", [.address addr] => some (.machineCall addr)
  | "JP", [.address addr] => some (.jump addr)
  | "CALL", [.address addr] => some (.call addr)
  | "SE", [.register x, .immediate nn] => some (.skipEqImm x nn)
  | "SNE", [.register x, .immediate nn] => some (.skipNeImm x nn)
  | "SE", [.register x, .register y] => some (.skipEqReg x y)
  | "LD", [.register x, .immediate nn] => some (.loadImm x nn)
  | "ADD", [.register x, .immediate nn] => some (.addImm x nn)
  | "LD", [.register x, .register y] => some (.move x y)
  | "OR", [.register x, .register y] => some (.or x y)
  | "AND", [.register x, .register y] => some (.and x y)
  | "XOR", [.register x, .register y] => some (.xor x y)
  | "ADD", [.register x, .register y] => some (.addReg x y)
  | "SUB", [.register x, .register y] => some (.subReg x y)
  | "SHR", [.register x, .register y] => some (.shiftRight x y)
  | "SUBN", [.register x, .register y] => some (.subReverse x y)
  | "SHL", [.register x, .register y] => some (.shiftLeft x y)
  | "SNE", [.register x, .register y] => some (.skipNeReg x y)
  | "LD", [.index, .address addr] => some (.loadIndex addr)
  | "JP", [.register 0, .address addr] => some (.jumpOffset addr)
  | "RND", [.register x, .immediate nn] => some (.random x nn)
  | "DRW", [.register x, .register y, .rows n] => some (.draw x y n)
  | "SKP", [.register x] => some (.skipKeyPressed x)
  | "SKNP", [.register x] => some (.skipKeyReleased x)
  | "LD", [.register x, .delay] => some (.getDelay x)
  | "LD", [.register x, .key] => some (.waitKey x)
  | "LD", [.delay, .register x] => some (.setDelay x)
  | "LD", [.sound, .register x] => some (.setSound x)
  | "ADD", [.index, .register x] => some (.addIndex x)
  | "LD", [.glyph, .register x] => some (.fontGlyph x)
  | "LD", [.digits, .register x] => some (.storeBcd x)
  | "LD", [.memory, .register x] => some (.storeRegs x)
  | "LD", [.register x, .memory] => some (.loadRegs x)
  | "???", [.word w] => some (.unknown w)
  | _, _ => none

/-- Name and operands determine the instruction. -/
theorem ofAssembly?_assembly (i : Instruction) :
    ofAssembly? i.assembly.1 i.assembly.2 = some i := by
  cases i <;> rfl

theorem solid_name (i : Instruction) : Solid i.assembly.1.toList := by
  cases i <;> simp [assembly, Solid]

/-- The operands of an instruction that there is a word for have room in their digits. -/
theorem fits_assembly {i : Instruction} (h : i.WellFormed) : ∀ o ∈ i.assembly.2, o.Fits := by
  cases i <;> simp_all [assembly, Operand.Fits, WellFormed]

/-! ## Mnemonics in pieces -/

theorem toList_reg (x : Fin 16) : (reg x).toList = (Operand.register x).text := by
  simp [reg, Operand.text]

theorem toList_imm (nn : UInt8) : (imm nn).toList = (Operand.immediate nn).text := by
  simp [imm, Operand.text, Numeral.toList_hex]

theorem toList_address (addr : UInt16) : (address addr).toList = (Operand.address addr).text := by
  simp [address, Operand.text, Numeral.toList_hex]

/-- A mnemonic is the line of its name and operands. -/
theorem toList_mnemonic (i : Instruction) :
    i.mnemonic.toList = line i.assembly.1.toList (i.assembly.2.map Operand.text) := by
  -- a jump past V0 names the register, although it has no other to name
  have hzero : digit 0 = '0' := by decide
  cases i <;>
    simp [mnemonic, assembly, line, List.intercalate_cons_cons, toList_reg, toList_imm,
      toList_address, Numeral.toList_hex, Numeral.toList_decimal, Operand.text, hzero]

/-! ## Reading back -/

/-- Reads a mnemonic: a name and operands, which are told by how they are written. -/
def ofMnemonic? (text : String) : Option Instruction :=
  match pieces text.toList with
  | [] => none
  | name :: operands => (operands.mapM Operand.read?).bind (ofAssembly? (String.ofList name))

/-- An instruction that there is a word for is read back from its mnemonic. -/
theorem ofMnemonic?_mnemonic {i : Instruction} (h : i.WellFormed) :
    ofMnemonic? i.mnemonic = some i := by
  have hsolid : ∀ text ∈ i.assembly.2.map Operand.text, Solid text :=
    List.forall_mem_map.mpr fun o _ => o.solid_text
  rw [ofMnemonic?, toList_mnemonic, pieces_line i.solid_name hsolid]
  change (List.mapM Operand.read? _).bind _ = _
  rw [Operand.mapM_read?_text (fits_assembly h), Option.bind_some, String.ofList_toList,
    ofAssembly?_assembly]

example : ofMnemonic? "LD [I], VA" = some (.storeRegs 0xa) := by decide

/-- **Mnemonics are unambiguous.** The mnemonic of what is read from a word can be read back as that
    instruction, by its pieces alone. So two words with the same mnemonic are the same word, however
    many instructions share the name. -/
theorem mnemonic_determines_word :
    (∀ w : Word, ofMnemonic? (decode w).mnemonic = some (decode w)) ∧
    ∀ w w' : Word, (decode w).mnemonic = (decode w').mnemonic ↔ w = w' := by
  have hback (w : Word) : ofMnemonic? (decode w).mnemonic = some (decode w) :=
    ofMnemonic?_mnemonic (wellFormed_decode w)
  refine ⟨hback, fun w w' => ⟨fun hsame => ?_, fun hsame => by rw [hsame]⟩⟩
  have hdecode : decode w = decode w' := by
    apply Option.some.inj
    rw [← hback w, hsame, hback w']
  rw [← encode_decode w, hdecode, encode_decode w']

end Instruction

end Chip8
