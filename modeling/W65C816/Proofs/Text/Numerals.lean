import W65C816.Text.Hexadecimal
import W65C816.Text.Numeral

/-!
# Numerals are read back

What is written in base sixteen is read as the number that was written, whatever it was padded to:
`Hexadecimal.read?_paddedDigits`. So the digits tell the number, and each of them is a digit to the
reader. How many there are is known as well when the number needs no more places than it was padded
to.
-/

set_option autoImplicit false

namespace W65C816.Text

namespace Numeral

/-- Whether the character is a digit of base sixteen. -/
def isHexadecimal (c : Char) : Bool :=
  (digit? 16 c).isSome

/-- A digit is read as what it was written for. -/
theorem digit?_digit {d : Nat} (small : d < 16) : digit? 16 (Hexadecimal.digit d) = some d := by
  have all : ∀ d : Fin 16, digit? 16 (Hexadecimal.digit d) = some d.val := by decide
  exact all ⟨d, small⟩

/-- Digits are read one row after the other. -/
theorem digitsFrom?_append (base value : Nat) (row more : List Char) :
    digitsFrom? base value (row ++ more) =
      (digitsFrom? base value row).bind fun value => digitsFrom? base value more := by
  induction row generalizing value with
  | nil => rfl
  | cons c rest ih =>
    rw [List.cons_append, digitsFrom?, digitsFrom?]
    cases digit? base c with
    | none => rfl
    | some d => exact ih (base * value + d)

/-- Only digits make a number. -/
theorem isHexadecimal_of_digitsFrom? {value number : Nat} {row : List Char}
    (h : digitsFrom? 16 value row = some number) : ∀ c ∈ row, isHexadecimal c = true := by
  induction row generalizing value with
  | nil => exact fun c member => absurd member List.not_mem_nil
  | cons first rest ih =>
    rw [digitsFrom?] at h
    obtain ⟨d, found, more⟩ := Option.bind_eq_some_iff.mp h
    intro c member
    rcases List.mem_cons.mp member with rfl | later
    · rw [isHexadecimal, found]
      rfl
    · exact ih more c later

end Numeral

namespace Hexadecimal

open Numeral

/-- The digits of a number are read as the number, by induction on it as it is written. -/
theorem digitsFrom?_digits (n : Nat) : digitsFrom? 16 0 (digits n) = some n := by
  induction n using digits.induct with
  | case1 n small =>
    rw [digits, if_pos small, digitsFrom?, digit?_digit small, Option.bind_some, digitsFrom?,
      Nat.mul_zero, Nat.zero_add]
  | case2 n large ih =>
    rw [digits, if_neg large, digitsFrom?_append, ih]
    have last : n % 16 < 16 := Nat.mod_lt n (by decide)
    simp only [Option.bind_some, digitsFrom?, digit?_digit last, Nat.div_add_mod]

/-- Zeros in front make no difference. -/
theorem digitsFrom?_paddedDigits (width n : Nat) :
    digitsFrom? 16 0 (paddedDigits width n) = some n := by
  rw [paddedDigits, digitsFrom?_append]
  generalize width - (digits n).length = zeros
  have none : digitsFrom? 16 0 (List.replicate zeros '0') = some 0 := by
    induction zeros with
    | zero => rfl
    | succ zeros ih => exact ih
  rw [none]
  exact digitsFrom?_digits n

/-- All padded digits are hexadecimal. -/
theorem isHexadecimal_paddedDigits (width n : Nat) :
    ∀ c ∈ paddedDigits width n, isHexadecimal c = true :=
  isHexadecimal_of_digitsFrom? (digitsFrom?_paddedDigits width n)

/-- A number has one digit at least. -/
theorem paddedDigits_ne_nil (width n : Nat) : paddedDigits width n ≠ [] := by
  have some : digits n ≠ [] := by
    rw [digits]
    split
    · exact List.cons_ne_nil _ _
    · exact List.append_ne_nil_of_right_ne_nil _ (List.cons_ne_nil _ _)
  exact List.append_ne_nil_of_right_ne_nil _ some

/-- A numeral that is written is read back. -/
theorem read?_paddedDigits {width n limit : Nat} (small : n < limit) :
    read? 16 limit (paddedDigits width n) = some n := by
  have value := digitsFrom?_paddedDigits width n
  have digits := isHexadecimal_paddedDigits width n
  have some := paddedDigits_ne_nil width n
  generalize paddedDigits width n = row at value digits some
  cases row with
  | nil => exact absurd rfl some
  | cons first rest =>
    have unsigned : first ≠ '+' := by
      rintro rfl
      exact absurd (digits '+' List.mem_cons_self) (by decide)
    unfold read?
    split
    · next same => exact absurd (List.cons.inj same).1 unsigned
    · dsimp only
      rw [List.isEmpty_cons, if_neg Bool.false_ne_true, value, Option.filter_some,
        if_pos (decide_eq_true small)]

/-- One more digit is one more place. -/
theorem length_digits_le_succ {n places : Nat} (h : (digits (n / 16)).length ≤ places) :
    (digits n).length ≤ places + 1 := by
  rw [digits]
  split
  · exact Nat.le_add_left 1 places
  · rw [List.length_append, List.length_singleton]
    omega

/-- A byte has two digits at most, and each further byte two more. -/
theorem length_digits_byte {n : Nat} (small : n < 0x100) : (digits n).length ≤ 2 := by
  refine length_digits_le_succ (Nat.le_of_eq ?_)
  rw [digits, if_pos (by omega)]
  rfl

/-- A word has up to four digits. -/
theorem length_digits_word {n : Nat} (small : n < 0x10000) : (digits n).length ≤ 4 :=
  length_digits_le_succ (length_digits_le_succ (length_digits_byte (by omega)))

/-- An address has up to six digits. -/
theorem length_digits_long {n : Nat} (small : n < 0x1000000) : (digits n).length ≤ 6 :=
  length_digits_le_succ (length_digits_le_succ (length_digits_word (by omega)))

/-- A number that is short enough is padded to its width. -/
theorem length_paddedDigits {width n : Nat} (h : (digits n).length ≤ width) :
    (paddedDigits width n).length = width := by
  rw [paddedDigits, List.length_append, List.length_replicate]
  omega

end Hexadecimal

end W65C816.Text
