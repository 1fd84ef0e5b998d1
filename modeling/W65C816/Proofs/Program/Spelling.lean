import W65C816.Proofs.Program.Encodings
import W65C816.Proofs.Program.Walk
import W65C816.Proofs.Text.Numerals

/-!
# The text of an instruction tells its bytes

An operand is written as a number between marks that the mode sets, `Addressing.Frame`. The first
mark ends where the dollar sign stands, the digits end where the second one begins, so the text
tells the marks and the digits apart, `Frame.unique`; the digits tell how many bytes the operand has
and which. Two modes that are written with the same marks have operands of different lengths, or one
of them is relative to the program counter, and no operation has a mode of either kind. So the text
tells the operation, the mode and the operands, and with them the bytes:
`DispatchTable.text_unambiguous`.
-/

set_option autoImplicit false

namespace W65C816

open Addressing Text

/-! ## Marks and digits -/

/-- A row is known by its beginning of characters of one kind and by what comes behind them, if that
does not begin with a character of the kind. -/
theorem span_unique {kind : Char → Bool} {row row' more more' : List Char}
    (all : ∀ c ∈ row, kind c = true) (all' : ∀ c ∈ row', kind c = true)
    (ends : more.head?.all fun c => !kind c) (ends' : more'.head?.all fun c => !kind c)
    (same : row ++ more = row' ++ more') : row = row' ∧ more = more' := by
  have beginning (row more : List Char) (all : ∀ c ∈ row, kind c = true)
      (ends : more.head?.all fun c => !kind c) : (row ++ more).takeWhile kind = row := by
    rw [List.takeWhile_append_of_pos all]
    cases more with
    | nil => rw [List.takeWhile_nil, List.append_nil]
    | cons c rest =>
      have other : ¬ kind c = true := by simpa using ends
      rw [List.takeWhile_cons, if_neg other, List.append_nil]
  have first : row = row' := by
    rw [← beginning row more all ends, same, beginning row' more' all' ends']
  subst first
  exact ⟨rfl, List.append_cancel_left same⟩

/-- Whether the character may stand around a number. -/
def isMark (c : Char) : Bool :=
  c ≠ '$'

/-- What a mode writes around a number. A dollar sign comes before the number, and no digit behind
it. -/
structure Addressing.Frame where
  before : List Char
  behind : List Char
  marks : before.all isMark && behind.all isMark
  ends : behind.head?.all fun c => !Numeral.isHexadecimal c
deriving DecidableEq

/-- How a mode writes its operand. -/
inductive Addressing.Form where
  /-- There is none. -/
  | bare
  /-- It is named. -/
  | register
  | number (frame : Frame)
  /-- The two banks of a block move. -/
  | banks
deriving DecidableEq

def Addressing.Mode.form : Mode → Form
  | .implied => .bare
  | .accumulator => .register
  | .immediate => .number ⟨['#'], [], by decide, by decide⟩
  | .direct | .absolute | .absoluteLong | .programCounterRelative
  | .programCounterRelativeLong => .number ⟨[], [], by decide, by decide⟩
  | .directIndexedX | .absoluteIndexedX | .absoluteLongIndexedX =>
    .number ⟨[], [',', ' ', 'x'], by decide, by decide⟩
  | .directIndexedY | .absoluteIndexedY => .number ⟨[], [',', ' ', 'y'], by decide, by decide⟩
  | .directIndirect | .absoluteIndirect => .number ⟨['('], [')'], by decide, by decide⟩
  | .directIndexedIndirect | .absoluteIndexedIndirect =>
    .number ⟨['('], [',', ' ', 'x', ')'], by decide, by decide⟩
  | .directIndirectIndexed => .number ⟨['('], [')', ',', ' ', 'y'], by decide, by decide⟩
  | .directIndirectLong | .absoluteIndirectLong => .number ⟨['['], [']'], by decide, by decide⟩
  | .directIndirectIndexedLong => .number ⟨['['], [']', ',', ' ', 'y'], by decide, by decide⟩
  | .stackRelative => .number ⟨[], [',', ' ', 's'], by decide, by decide⟩
  | .stackRelativeIndirectIndexed =>
    .number ⟨['('], [',', ' ', 's', ')', ',', ' ', 'y'], by decide, by decide⟩
  | .blockMove => .banks

namespace Addressing

/-- The characters of an operand. -/
def Form.spell (form : Form) (operands : Operands) : Option (List Char) :=
  match form with
  | .bare => none
  | .register => some ['A']
  | .number frame =>
    some (frame.before ++ (operandText operands.first operands.length).toList ++ frame.behind)
  | .banks =>
    some ((operandText operands.first 1).toList ++ [',', ' '] ++
      (operandText operands.second 1).toList)

/-- The text of the operands is what the form of the mode spells. -/
theorem Mode.toList_operandText? (mode : Mode) (operands : Operands) :
    (mode.operandText? operands).map String.toList = mode.form.spell operands := by
  cases mode <;> simp [Mode.operandText?, Mode.form, Form.spell]

end Addressing

/-! ## Numbers -/

/-- A numeral is its digits behind a dollar sign. -/
theorem toList_numeral (width n : Nat) :
    ("$" ++ Hexadecimal.padded width n).toList = '$' :: Hexadecimal.paddedDigits width n := by
  simp [Hexadecimal.padded]

/-- An operand is written with two digits for each of its bytes. -/
theorem toList_operandText (value : UInt32) {length : Nat} (some : 1 ≤ length)
    (short : length ≤ 3) :
    ∃ digits, (operandText value length).toList = '$' :: digits ∧ digits.length = 2 * length ∧
      Numeral.digitsFrom? 16 0 digits = Option.some (lowBytes value length).toNat := by
  have written (width n : Nat) (fits : (Hexadecimal.digits n).length ≤ width) :
      ∃ digits, ("$" ++ Hexadecimal.padded width n).toList = '$' :: digits ∧
        digits.length = width ∧ Numeral.digitsFrom? 16 0 digits = Option.some n :=
    ⟨_, toList_numeral width n, Hexadecimal.length_paddedDigits fits,
      Hexadecimal.digitsFrom?_paddedDigits width n⟩
  rcases length with _ | _ | _ | _ | length
  · omega
  · exact written 2 (value.toNat % 0x100) (Hexadecimal.length_digits_byte (by omega))
  · exact written 4 (value.toNat % 0x10000) (Hexadecimal.length_digits_word (by omega))
  · exact written 6 (value.toNat % 0x1000000) (Hexadecimal.length_digits_long (by omega))
  · omega

/-- The text of an operand tells its length and its bytes. -/
theorem operandText_injective {value value' : UInt32} {length length' : Nat} (some : 1 ≤ length)
    (short : length ≤ 3) (some' : 1 ≤ length') (short' : length' ≤ 3)
    (same : operandText value length = operandText value' length') :
    length = length' ∧ lowBytes value length = lowBytes value' length' := by
  obtain ⟨digits, text, long, number⟩ := toList_operandText value some short
  obtain ⟨digits', text', long', number'⟩ := toList_operandText value' some' short'
  rw [same, text'] at text
  obtain rfl := (List.cons.inj text).2
  rw [number'] at number
  exact ⟨by omega, UInt32.toNat.inj (Option.some.inj number).symm⟩

/-- However long it is, an operand is a dollar sign with digits behind it. -/
theorem exists_digits (value : UInt32) (length : Nat) :
    ∃ digits, (operandText value length).toList = '$' :: digits ∧
      ∀ c ∈ digits, Numeral.isHexadecimal c = true := by
  unfold operandText
  split <;>
    exact ⟨_, toList_numeral _ _, Hexadecimal.isHexadecimal_paddedDigits _ _⟩

namespace Addressing

/-- The numbers that are written in an operand. -/
def Form.numerals (form : Form) (operands : Operands) : List String :=
  match form with
  | .bare | .register => []
  | .number _ => [operandText operands.first operands.length]
  | .banks => [operandText operands.first 1, operandText operands.second 1]

/-- An operand is one numeral. -/
theorem count_operandText (value : UInt32) (length : Nat) :
    (operandText value length).toList.count '$' = 1 := by
  obtain ⟨digits, text, all⟩ := exists_digits value length
  have none : '$' ∉ digits := fun member => absurd (all '$' member) (by decide)
  rw [text, List.count_cons_self, List.count_eq_zero_of_not_mem none]

/-- There is a dollar sign for each number and nowhere else. -/
theorem Form.count_spell {form : Form} {operands : Operands} {text : List Char}
    (h : form.spell operands = some text) :
    text.count '$' = (form.numerals operands).length := by
  cases form with
  | bare => cases h
  | register =>
    cases h
    rfl
  | number frame =>
    have marks := frame.marks
    rw [Bool.and_eq_true, List.all_eq_true, List.all_eq_true] at marks
    have before : '$' ∉ frame.before := fun member => absurd (marks.1 '$' member) (by decide)
    have behind : '$' ∉ frame.behind := fun member => absurd (marks.2 '$' member) (by decide)
    cases h
    rw [List.count_append, List.count_append, count_operandText,
      List.count_eq_zero_of_not_mem before, List.count_eq_zero_of_not_mem behind]
    rfl
  | banks =>
    cases h
    rw [List.count_append, List.count_append, count_operandText, count_operandText]
    rfl

/-- A number between marks, taken apart. -/
theorem Frame.unique {frame frame' : Frame} {value value' : UInt32} {length length' : Nat}
    (same : frame.before ++ (operandText value length).toList ++ frame.behind =
      frame'.before ++ (operandText value' length').toList ++ frame'.behind) :
    frame = frame' ∧ operandText value length = operandText value' length' := by
  obtain ⟨before, behind, marks, ends⟩ := frame
  obtain ⟨before', behind', marks', ends'⟩ := frame'
  obtain ⟨digits, text, all⟩ := exists_digits value length
  obtain ⟨digits', text', all'⟩ := exists_digits value' length'
  dsimp only at same
  rw [Bool.and_eq_true, List.all_eq_true] at marks marks'
  rw [text, text', List.append_assoc, List.append_assoc, List.cons_append, List.cons_append]
    at same
  obtain ⟨rfl, rest⟩ := span_unique marks.1 marks'.1 rfl rfl same
  obtain ⟨rfl, rfl⟩ := span_unique all all' ends ends' (List.cons.inj rest).2
  exact ⟨rfl, String.toList_injective (text.trans text'.symm)⟩

/-- The characters of an operand tell the form and the numbers. -/
theorem Form.spell_injective {form form' : Form} {operands operands' : Operands}
    (same : form.spell operands = form'.spell operands') :
    form = form' ∧ form.numerals operands = form'.numerals operands' := by
  have counts (text : List Char) (h : form.spell operands = some text) :
      (form.numerals operands).length = (form'.numerals operands').length := by
    rw [← count_spell h, count_spell (same.symm.trans h)]
  cases form with
  | bare =>
    cases form' with
    | bare => exact ⟨rfl, rfl⟩
    | register | number | banks => cases same
  | register =>
    cases form' with
    | register => exact ⟨rfl, rfl⟩
    | bare => cases same
    | number | banks => cases counts _ rfl
  | number frame =>
    cases form' with
    | number frame' =>
      obtain ⟨rfl, text⟩ := Frame.unique (Option.some.inj same)
      exact ⟨rfl, congrArg (fun text => [text]) text⟩
    | bare => cases same
    | register | banks => cases counts _ rfl
  | banks =>
    cases form' with
    | banks =>
      have same := Option.some.inj same
      obtain ⟨digits, text, all⟩ := exists_digits operands.first 1
      obtain ⟨digits', text', all'⟩ := exists_digits operands'.first 1
      rw [text, text', List.append_assoc, List.append_assoc, List.cons_append, List.cons_append]
        at same
      obtain ⟨rfl, rest⟩ := span_unique all all' rfl rfl (List.cons.inj same).2
      have first := String.toList_injective (text.trans text'.symm)
      have rest : [',', ' '] ++ (operandText operands.second 1).toList =
          [',', ' '] ++ (operandText operands'.second 1).toList := rest
      have second := String.toList_injective (List.append_cancel_left rest)
      exact ⟨rfl, by rw [numerals, numerals, first, second]⟩
    | bare => cases same
    | register | number => cases counts _ rfl

/-! ## Modes -/

/-- Whether the operand is a distance from the program counter. -/
def Mode.isRelative : Mode → Bool
  | .programCounterRelative | .programCounterRelativeLong => true
  | _ => false

/-- Every mode is listed. -/
theorem Mode.mem_all (mode : Mode) : mode ∈ Mode.all := by
  cases mode <;> decide

/-- Modes that are written alike have operands of different lengths, or one of them is relative. -/
theorem Mode.eq_of_form {mode mode' : Mode} (form : mode.form = mode'.form)
    (relative : mode.isRelative = mode'.isRelative)
    (length : ∀ frame, mode.form = .number frame → ∀ n n', mode.operandLength? = some n →
      mode'.operandLength? = some n' → n = n') : mode = mode' := by
  have all : ∀ mode ∈ Mode.all, ∀ mode' ∈ Mode.all, mode.form = mode'.form →
      mode.isRelative = mode'.isRelative →
        (mode.form = .bare ∨ mode.form = .register ∨ mode.form = .banks ∨
          (mode.operandLength?.all fun n => mode'.operandLength?.all fun n' => n = n') = true) →
          mode = mode' := by decide +kernel
  refine all mode mode.mem_all mode' mode'.mem_all form relative ?_
  cases written : mode.form with
  | bare => exact .inl rfl
  | register => exact .inr (.inl rfl)
  | banks => exact .inr (.inr (.inl rfl))
  | number frame =>
    refine .inr (.inr (.inr ?_))
    cases known : mode.operandLength? with
    | none => rfl
    | some n =>
      cases known' : mode'.operandLength? with
      | none => rfl
      | some n' => exact decide_eq_true (length frame written n n' known known')

/-- Only the banks of a block move are written as banks. -/
theorem Mode.form_eq_banks_iff (mode : Mode) : mode.form = .banks ↔ mode = .blockMove := by
  cases mode <;> decide

/-- What is not written as a number has no operand bytes, unless it is a block move. -/
theorem Mode.operandLength?_of_form {mode : Mode}
    (h : mode.form = .bare ∨ mode.form = .register) : mode.operandLength? = some 0 := by
  revert h
  cases mode <;> decide

/-- What is written as a number has operand bytes. -/
theorem Mode.operandLength?_ne_zero {mode : Mode} {frame : Frame}
    (h : mode.form = .number frame) : mode.operandLength? ≠ some 0 := by
  have none : mode.operandLength? = some 0 → mode.form = .bare ∨ mode.form = .register := by
    cases mode <;> decide
  intro zero
  rcases none zero with bare | register
  · cases h.symm.trans bare
  · cases h.symm.trans register

end Addressing

/-! ## Operations -/

/-- Every mnemonic has three letters. -/
theorem Opcode.length_mnemonic (opcode : Opcode) : opcode.mnemonic.toList.length = 3 := by
  cases opcode <;> decide +kernel

/-- The mnemonic is read back. -/
theorem Opcode.ofMnemonic?_mnemonic {opcode : Opcode} (valid : opcode ≠ .invalid) :
    ofMnemonic? opcode.mnemonic = some opcode := by
  revert valid
  cases opcode <;> decide +kernel

/-- An immediate constant has at least one byte. -/
theorem Opcode.one_le_immediateLength? {opcode : Opcode} {widths : Widths} {length : Nat}
    (h : opcode.immediateLength? widths = some length) : 1 ≤ length := by
  have some (width : Width) : 1 ≤ width.bytes := by cases width <;> decide
  unfold immediateLength? at h
  split at h <;> cases h <;> first
    | exact some _
    | exact Nat.le_refl 1

/-- No operation of the standard set has both relative modes and others. -/
theorem isRelative_standardEncodings : ∀ encoding ∈ standardEncodings,
    encoding.2.isRelative = true → ∀ other ∈ standardEncodings, other.1 = encoding.1 →
      other.2.isRelative = true := by
  decide +kernel

/-! ## Instructions -/

namespace Instruction

variable {instruction : Instruction} {operands operands' : Operands} {widths widths' : Widths}

/-- The text of an instruction is its mnemonic with the operand behind it. -/
theorem toList_text (valid : instruction.isValid = true) (operands : Operands) :
    (instruction.text operands).toList = instruction.opcode.mnemonic.toList ++
      ((instruction.mode.form.spell operands).map (' ' :: ·)).getD [] := by
  rw [text, if_pos valid, ← Mode.toList_operandText?]
  cases instruction.mode.operandText? operands with
  | none => simp
  | some operand => simp

/-- A mode whose operands have a fixed length decides on it. -/
theorem operandLength_of_mode (valid : instruction.isValid = true) {n length : Nat}
    (known : instruction.operandLength widths = .ok length)
    (fixed : instruction.mode.operandLength? = some n) : length = n := by
  rw [operandLength, if_pos valid, fixed] at known
  exact (Except.ok.inj known).symm

/-- An operand that is written as a number has at least one byte. -/
theorem one_le_operandLength (valid : instruction.isValid = true) {frame : Frame} {length : Nat}
    (number : instruction.mode.form = .number frame)
    (known : instruction.operandLength widths = .ok length) : 1 ≤ length := by
  cases fixed : instruction.mode.operandLength? with
  | some n =>
    have some := Mode.operandLength?_ne_zero number
    rw [operandLength_of_mode valid known fixed]
    rw [fixed] at some
    exact Nat.pos_of_ne_zero fun zero => some (congrArg Option.some zero)
  | none =>
    rw [operandLength, if_pos valid, fixed] at known
    cases constant : instruction.opcode.immediateLength? widths with
    | none =>
      rw [constant] at known
      cases known
    | some n =>
      rw [constant] at known
      cases known
      exact Opcode.one_le_immediateLength? constant

/-- Operands that are read, in the same numbers, are the same. -/
theorem operands_eq_of_numerals (valid : instruction.isValid = true)
    (known : instruction.operandLength widths = .ok operands.length)
    (known' : instruction.operandLength widths' = .ok operands'.length)
    (reduced : instruction.reduce operands = operands)
    (reduced' : instruction.reduce operands' = operands')
    (same : instruction.mode.form.numerals operands = instruction.mode.form.numerals operands') :
    operands = operands' := by
  obtain ⟨first, second, length⟩ := operands
  obtain ⟨first', second', length'⟩ := operands'
  by_cases move : instruction.mode = .blockMove
  · have banks := (Mode.form_eq_banks_iff instruction.mode).mpr move
    obtain rfl : length = 2 := length_blockMove valid move known
    obtain rfl : length' = 2 := length_blockMove valid move known'
    rw [reduce, if_pos move] at reduced reduced'
    injection reduced with small small₂
    injection reduced' with small' small₂'
    rw [banks] at same
    obtain ⟨one, two⟩ := List.cons.inj same
    have hfirst := (operandText_injective (by decide) (by decide) (by decide) (by decide) one).2
    have hsecond := (operandText_injective (by decide) (by decide) (by decide) (by decide)
      (List.cons.inj two).1).2
    rw [small, small'] at hfirst
    rw [small₂, small₂'] at hsecond
    rw [hfirst, hsecond]
  · rw [reduce, if_neg move] at reduced reduced'
    injection reduced with small none
    injection reduced' with small' none'
    have bare (h : instruction.mode.form = .bare ∨ instruction.mode.form = .register) :
        length = 0 ∧ length' = 0 :=
      have fixed := Mode.operandLength?_of_form h
      ⟨operandLength_of_mode valid known fixed, operandLength_of_mode valid known' fixed⟩
    have both : length = length' ∧ lowBytes first length = lowBytes first' length' := by
      cases written : instruction.mode.form with
      | bare =>
        obtain ⟨rfl, rfl⟩ := bare (.inl written)
        exact ⟨rfl, rfl⟩
      | register =>
        obtain ⟨rfl, rfl⟩ := bare (.inr written)
        exact ⟨rfl, rfl⟩
      | banks => exact absurd ((Mode.form_eq_banks_iff instruction.mode).mp written) move
      | number frame =>
        rw [written] at same
        exact operandText_injective (one_le_operandLength valid written known)
          (operandLength_le known) (one_le_operandLength valid written known')
          (operandLength_le known') (List.cons.inj same).1
    obtain ⟨rfl, hfirst⟩ := both
    rw [small, small'] at hfirst
    rw [hfirst, ← none, ← none']

end Instruction

/-! ## The standard set -/

namespace DispatchTable

variable {widths widths' : Widths} {bytes bytes' : List UInt8} {record record' : Record}

/-- What the standard table has for a byte is an instruction. -/
theorem isValid_of_get {instruction : Instruction}
    (entry : standard.get instruction.code = instruction) : instruction.isValid = true :=
  valid_of_mem (entry ▸ get_mem_standard instruction.code)

/-- An operation of the standard set has relative modes or other ones. -/
theorem isRelative_eq {instruction instruction' : Instruction}
    (entry : standard.get instruction.code = instruction)
    (entry' : standard.get instruction'.code = instruction')
    (same : instruction.opcode = instruction'.opcode) :
    instruction.mode.isRelative = instruction'.mode.isRelative := by
  have listed := encoding_mem_standard instruction.code
  have listed' := encoding_mem_standard instruction'.code
  rw [entry] at listed
  rw [entry'] at listed'
  rw [Bool.eq_iff_iff]
  exact ⟨fun relative => isRelative_standardEncodings _ listed relative _ listed' same.symm,
    fun relative => isRelative_standardEncodings _ listed' relative _ listed same⟩

/-- The text tells the instruction and its operands. -/
theorem ReadFrom.eq_of_text {bus bus' : Bus} (h : standard.ReadFrom record widths bus)
    (h' : standard.ReadFrom record' widths' bus') (same : record.text = record'.text) :
    record.instruction = record'.instruction ∧ record.operands = record'.operands := by
  obtain ⟨offset, instruction, operands⟩ := record
  obtain ⟨offset', instruction', operands'⟩ := record'
  obtain ⟨entry, known, reduced, -⟩ := h
  obtain ⟨entry', known', reduced', -⟩ := h'
  dsimp only at entry known reduced entry' known' reduced' ⊢
  have valid := isValid_of_get entry
  have valid' := isValid_of_get entry'
  have text : instruction.text operands = instruction'.text operands' := same
  have characters := congrArg String.toList text
  rw [Instruction.toList_text valid, Instruction.toList_text valid'] at characters
  obtain ⟨mnemonic, operand⟩ := List.append_inj characters
    ((Opcode.length_mnemonic _).trans (Opcode.length_mnemonic _).symm)
  have opcode : instruction.opcode = instruction'.opcode := by
    have back := Opcode.ofMnemonic?_mnemonic (bne_iff_ne.mp valid)
    rw [String.toList_injective mnemonic, Opcode.ofMnemonic?_mnemonic (bne_iff_ne.mp valid')]
      at back
    exact (Option.some.inj back).symm
  have spelled : instruction.mode.form.spell operands =
      instruction'.mode.form.spell operands' := by
    generalize instruction.mode.form.spell operands = left at operand
    generalize instruction'.mode.form.spell operands' = right at operand
    cases left <;> cases right <;> simp at operand ⊢
    exact operand
  obtain ⟨form, numerals⟩ := Form.spell_injective spelled
  have mode : instruction.mode = instruction'.mode := by
    refine Mode.eq_of_form form (isRelative_eq entry entry' opcode) ?_
    intro frame written n n' fixed fixed'
    have written' := form ▸ written
    rw [written, written'] at numerals
    have length := (operandText_injective (Instruction.one_le_operandLength valid written known)
      (Instruction.operandLength_le known)
      (Instruction.one_le_operandLength valid' written' known')
      (Instruction.operandLength_le known') (List.cons.inj numerals).1).1
    rw [← Instruction.operandLength_of_mode valid known fixed, length,
      Instruction.operandLength_of_mode valid' known' fixed']
  have member := get_mem_standard instruction.code
  have member' := get_mem_standard instruction'.code
  rw [entry, registry_standard] at member
  rw [entry', registry_standard] at member'
  obtain rfl := Registry.unambiguous_standard _ member _ member' opcode mode
  exact ⟨rfl, Instruction.operands_eq_of_numerals valid known known' reduced reduced' numerals⟩

/-- An encoding that the standard table reads is one of an instruction. -/
theorem Encodes.readFrom (h : standard.Encodes bytes widths record) :
    record.instruction.isValid = true ∧ ∃ bus, standard.ReadFrom record widths bus := by
  obtain ⟨bus, offset, -, read, -⟩ := h
  have entry := (instruction_of_decodeAt (read8_of_decodeAt read) read).symm
  have valid := isValid_of_get entry
  exact ⟨valid, bus, (readFrom_of_decodeAt read valid).2⟩

/-- The text tells the bytes. Two encodings that the standard table reads, each from a bus and under
widths of its own, are the same byte for byte if the records are written with the same text, and the
records have the same instruction with the same operands. -/
theorem text_unambiguous (h : standard.Encodes bytes widths record)
    (h' : standard.Encodes bytes' widths' record') (same : record.text = record'.text) :
    bytes = bytes' ∧ record.instruction = record'.instruction ∧
      record.operands = record'.operands := by
  obtain ⟨valid, bus, readFrom⟩ := h.readFrom
  obtain ⟨valid', bus', readFrom'⟩ := h'.readFrom
  obtain ⟨instruction, operands⟩ := readFrom.eq_of_text readFrom' same
  refine ⟨?_, instruction, operands⟩
  rw [h.bytes_eq valid, h'.bytes_eq valid', Record.bytes, Record.bytes, instruction, operands]

/-- An immediate load, twice in a row. -/
theorem text_unambiguous_twice :
    let view := (View.whole Memory.least).setAll 0 [0xA9, 0x12, 0xA9, 0x12]
    (Bus.flat view).Holds 0 [0xA9, 0x12] ∧ (Bus.flat view).Holds 2 [0xA9, 0x12] ∧
      (loadImmediate 0 0x12).text = "LDA #$12" ∧ (loadImmediate 2 0x12).text = "LDA #$12" ∧
      ([0xA9, 0x12] : List UInt8) = [0xA9, 0x12] ∧
      (loadImmediate 0 0x12).instruction = (loadImmediate 2 0x12).instruction ∧
      (loadImmediate 0 0x12).operands = (loadImmediate 2 0x12).operands := by
  intro view
  have room : 0 + ([0xA9, 0x12, 0xA9, 0x12] : List UInt8).length ≤
      (View.whole Memory.least).length := by
    have size : (View.whole Memory.least).length = 0x200 := Memory.size_least
    rw [size]
    decide
  have holds := View.holds_setAll room
  rw [show (View.whole Memory.least).start + 0 = 0 from Nat.zero_add _] at holds
  have first : view.Holds (0 : UInt32).toNat [0xA9, 0x12] :=
    ⟨holds.1, holds.2.1, holds.2.2.1, holds.2.2.2.1, trivial⟩
  have second : view.Holds (2 : UInt32).toNat [0xA9, 0x12] := holds.2.2.2.2
  have here := (Bus.holds_flat_iff view 0 _).mpr first
  have there := (Bus.holds_flat_iff view 2 _).mpr second
  have text : (loadImmediate 0 0x12).text = "LDA #$12" := by decide +kernel
  have text' : (loadImmediate 2 0x12).text = "LDA #$12" := by decide +kernel
  have encodes : standard.Encodes [0xA9, 0x12] {} (loadImmediate 0 0x12) :=
    ⟨.flat view, 0, here, decodeAt_loadImmediate 0 first, rfl⟩
  have encodes' : standard.Encodes [0xA9, 0x12] {} (loadImmediate 2 0x12) :=
    ⟨.flat view, 2, there, decodeAt_loadImmediate 2 second, rfl⟩
  have told := text_unambiguous encodes encodes' (text.trans text'.symm)
  exact ⟨here, there, text, text', told⟩

end DispatchTable

end W65C816
