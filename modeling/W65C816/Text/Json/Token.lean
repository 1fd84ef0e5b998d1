import W65C816.Text.Numeral

/-!
# JSON tokens

The words of a JSON text: the six punctuation marks, the three names, numbers and strings. A number
is kept only as far as it is a natural number written in digits alone, and a string only if its
escapes spell characters: a half of a surrogate pair on its own spells none, but it does not make
the text malformed.
-/

set_option autoImplicit false

namespace W65C816.Text.Json

/-- A word of a JSON text. -/
inductive Token where
  | openArray
  | closeArray
  | openObject
  | closeObject
  | comma
  | colon
  | null
  | truth (value : Bool)
  /-- A number, with its value if it is a natural number written in digits. -/
  | number (natural? : Option Nat)
  /-- A string, with its characters if it spells any. -/
  | text (content? : Option String)
deriving DecidableEq, Repr

/-- Whether the character may stand between tokens. -/
def isSpace (c : Char) : Bool :=
  c = ' ' || c = '\n' || c = '\t' || c = '\r'

/-- The token of a punctuation mark. -/
def punctuation? (c : Char) : Option Token :=
  match c with
  | '[' => some .openArray
  | ']' => some .closeArray
  | '\x7b' => some .openObject
  | '\x7d' => some .closeObject
  | ',' => some .comma
  | ':' => some .colon
  | _ => none

/-- Whether the character ends a name or a number. -/
def isDelimiter (c : Char) : Bool :=
  isSpace c || (punctuation? c).isSome || c = '"'

/-- A row of at least one digit, and what follows it. -/
def digits? (s : List Char) : Option (List Char × List Char) :=
  let row := s.takeWhile Char.isDigit
  if row.isEmpty then none else some (row, s.dropWhile Char.isDigit)

/-- What follows the fraction of a number, if it has one. -/
def skipFraction? : List Char → Option (List Char)
  | '.' :: rest => (digits? rest).map Prod.snd
  | rest => some rest

/-- What follows the exponent of a number, if it has one. -/
def skipExponent? (s : List Char) : Option (List Char) :=
  let unsigned : List Char → List Char
    | '+' :: rest => rest
    | '-' :: rest => rest
    | rest => rest
  match s with
  | 'e' :: rest => (digits? (unsigned rest)).map Prod.snd
  | 'E' :: rest => (digits? (unsigned rest)).map Prod.snd
  | rest => some rest

/-- A number without its sign, as a token. There is no zero in front of other digits. -/
def unsigned? (s : List Char) : Option Token := do
  let (row, rest) ← digits? s
  if row.head? = some '0' ∧ row ≠ ['0'] then none
  else
    let rest' ← skipFraction? rest
    let rest'' ← skipExponent? rest'
    if rest''.isEmpty then
      some (.number (if rest.isEmpty then Numeral.digitsFrom? 10 0 row else none))
    else none

/-- A name or a number as a token. -/
def word? (s : List Char) : Option Token :=
  if s = "null".toList then some .null
  else if s = "true".toList then some (.truth true)
  else if s = "false".toList then some (.truth false)
  else
    match s with
    | '-' :: rest => (unsigned? rest).map fun _ => .number none
    | _ => unsigned? s

/-- A part of a string: a character, or the sixteen bits of an escape. -/
inductive Piece where
  | char (c : Char)
  | unit (value : Nat)
deriving DecidableEq, Repr

/-- The value of four digits in base sixteen. -/
def unit? (digits : List Char) : Option Nat :=
  Numeral.digitsFrom? 16 0 digits

/-- The character of a short escape. -/
def shortEscape? (c : Char) : Option Char :=
  match c with
  | '"' => some '"'
  | '\\' => some '\\'
  | '/' => some '/'
  | 'b' => some '\x08'
  | 'f' => some '\x0c'
  | 'n' => some '\n'
  | 'r' => some '\r'
  | 't' => some '\t'
  | _ => none

/-- The parts of a string up to its closing quotation mark, and what follows it. Control characters
have to be escaped. -/
def pieces? : List Char → Option (List Piece × List Char)
  | [] => none
  | '"' :: rest => some ([], rest)
  | '\\' :: 'u' :: a :: b :: c :: d :: rest => do
    let value ← unit? [a, b, c, d]
    let (pieces, rest) ← pieces? rest
    pure (.unit value :: pieces, rest)
  | '\\' :: c :: rest => do
    let c ← shortEscape? c
    let (pieces, rest) ← pieces? rest
    pure (.char c :: pieces, rest)
  | c :: rest =>
    if c.toNat < 0x20 ∨ c = '\\' then none
    else do
      let (pieces, rest) ← pieces? rest
      pure (.char c :: pieces, rest)

/-- The characters that the parts of a string spell. The halves of a surrogate pair spell one
together and none alone. -/
def spell? : List Piece → Option (List Char)
  | [] => some []
  | .char c :: rest => (spell? rest).map (c :: ·)
  | .unit high :: .unit low :: rest =>
    if 0xD800 ≤ high ∧ high < 0xDC00 then
      if 0xDC00 ≤ low ∧ low < 0xE000 then
        (spell? rest).map
          (Char.ofNat (0x10000 + (high - 0xD800) * 0x400 + (low - 0xDC00)) :: ·)
      else none
    else if 0xDC00 ≤ high ∧ high < 0xE000 then none
    else (spell? (.unit low :: rest)).map (Char.ofNat high :: ·)
  | .unit value :: rest =>
    if 0xD800 ≤ value ∧ value < 0xE000 then none
    else (spell? rest).map (Char.ofNat value :: ·)

/-- The pieces of a string take up at least its closing quote. -/
theorem length_lt_of_pieces? {s rest : List Char} {pieces : List Piece}
    (h : pieces? s = some (pieces, rest)) : rest.length < s.length := by
  fun_induction pieces? s generalizing pieces rest with
  | case1 => cases h
  | case2 => cases h; simp
  | case3 a b c d s ih =>
    simp only [Option.bind_eq_bind, Option.bind_eq_some_iff, Option.pure_def] at h
    obtain ⟨value, _, ⟨pieces, rest⟩, found, h⟩ := h
    cases h
    have := ih found
    simp
    omega
  | case4 c s _ ih =>
    simp only [Option.bind_eq_bind, Option.bind_eq_some_iff, Option.pure_def] at h
    obtain ⟨value, _, ⟨pieces, rest⟩, found, h⟩ := h
    cases h
    have := ih found
    simp
    omega
  | case5 => cases h
  | case6 c s _ _ _ _ ih =>
    simp only [Option.bind_eq_bind, Option.bind_eq_some_iff, Option.pure_def] at h
    obtain ⟨⟨pieces, rest⟩, found, h⟩ := h
    cases h
    have := ih found
    simp
    omega

/-- Dropping characters leaves no more than there were. -/
theorem length_dropWhile_le (p : Char → Bool) (s : List Char) :
    (s.dropWhile p).length ≤ s.length :=
  (List.dropWhile_sublist p).length_le

/-- The tokens of a text. -/
def tokens? (s : List Char) : Option (List Token) :=
  match s with
  | [] => some []
  | c :: rest =>
    if isSpace c then tokens? rest
    else
      match punctuation? c with
      | some token => (tokens? rest).map (token :: ·)
      | none =>
        if c = '"' then
          match _h : pieces? rest with
          | none => none
          | some (pieces, after) =>
            (tokens? after).map (.text ((spell? pieces).map String.ofList) :: ·)
        else do
          let token ← word? (c :: rest.takeWhile fun c => !isDelimiter c)
          let tokens ← tokens? (rest.dropWhile fun c => !isDelimiter c)
          pure (token :: tokens)
termination_by s.length
decreasing_by
  · simp
  · simp
  · have := length_lt_of_pieces? _h
    simp
    omega
  · have := length_dropWhile_le (fun c => !isDelimiter c) rest
    simp
    omega

end W65C816.Text.Json
