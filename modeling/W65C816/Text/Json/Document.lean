import W65C816.Text.Json.Token

/-!
# JSON documents

The value that a JSON text stands for. The reader takes one token after the other and keeps the
containers that are still open on a stack, so it needs no more than the text is long. Members of an
object stay in the order of the text, and a key may come twice.
-/

set_option autoImplicit false

namespace W65C816.Text

inductive Json where
  | null
  | truth (value : Bool)
  /-- A number, with its value if it is a natural number written in digits. -/
  | number (natural? : Option Nat)
  /-- A string, with its characters if it spells any. -/
  | text (content? : Option String)
  | array (items : List Json)
  | object (members : List (Option String × Json))

namespace Json

/-- A container that waits for the value inside it to be complete. What it holds so far is kept
latest first. -/
inductive Frame where
  | array (items : List Json)
  | object (members : List (Option String × Json)) (key : Option String)

/-- What may come next. -/
inductive Reader where
  | nextValue (stack : List Frame)
  | firstItem (stack : List Frame)
  | afterItem (items : List Json) (stack : List Frame)
  | firstKey (stack : List Frame)
  | nextKey (members : List (Option String × Json)) (stack : List Frame)
  | nextColon (members : List (Option String × Json)) (key : Option String) (stack : List Frame)
  | afterMember (members : List (Option String × Json)) (stack : List Frame)
  | done (value : Json)

namespace Reader

/-- A value is complete. -/
def put (value : Json) : List Frame → Reader
  | [] => .done value
  | .array items :: stack => .afterItem (value :: items) stack
  | .object members key :: stack => .afterMember ((key, value) :: members) stack

/-- The beginning of a value. -/
def start (stack : List Frame) : Token → Option Reader
  | .openArray => some (.firstItem stack)
  | .openObject => some (.firstKey stack)
  | .null => some (put .null stack)
  | .truth value => some (put (.truth value) stack)
  | .number natural? => some (put (.number natural?) stack)
  | .text content? => some (put (.text content?) stack)
  | .closeArray | .closeObject | .comma | .colon => none

def take (reader : Reader) (token : Token) : Option Reader :=
  match reader, token with
  | .nextValue stack, token => start stack token
  | .firstItem stack, .closeArray => some (put (.array []) stack)
  | .firstItem stack, token => start (.array [] :: stack) token
  | .afterItem items stack, .comma => some (.nextValue (.array items :: stack))
  | .afterItem items stack, .closeArray => some (put (.array items.reverse) stack)
  | .firstKey stack, .closeObject => some (put (.object []) stack)
  | .firstKey stack, .text key => some (.nextColon [] key stack)
  | .nextKey members stack, .text key => some (.nextColon members key stack)
  | .nextColon members key stack, .colon => some (.nextValue (.object members key :: stack))
  | .afterMember members stack, .comma => some (.nextKey members stack)
  | .afterMember members stack, .closeObject => some (put (.object members.reverse) stack)
  | _, _ => none

end Reader

/-- The value of a text, if it is well formed. -/
def read? (text : String) : Option Json := do
  let tokens ← tokens? text.toList
  match ← tokens.foldlM Reader.take (.nextValue []) with
  | .done value => some value
  | _ => none

/-- The value of a natural number that is below a limit. -/
def natural? (limit : Nat) : Json → Option Nat
  | .number (some n) => if n < limit then some n else none
  | _ => none

/-- The value of a name for a truth value. -/
def truth? : Json → Option Bool
  | .truth value => some value
  | _ => none

end Json

end W65C816.Text
