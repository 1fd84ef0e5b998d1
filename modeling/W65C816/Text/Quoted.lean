import W65C816.Text.Extender
import W65C816.Text.Hexadecimal
import W65C816.Text.Ignorable
import W65C816.Text.Unprintable

/-!
# Quoted text

Text that a message mentions stands between quotation marks. Quotation marks and backslashes
inside it are escaped, and so are the characters that cannot be seen, those that may be shown as
nothing, and those that merge with the character before them, so that each text has a form of its
own and that form can be read off the screen.
-/

set_option autoImplicit false

namespace W65C816.Text.Quoted

/-- The digits of a code point in base sixteen, in lower case. -/
def lowerDigits (n : Nat) : List Char :=
  (Hexadecimal.digits n).map Char.toLower

/-- Whether a reader can see the character where it stands. -/
def isVisible (c : Char) : Bool :=
  !(Unprintable.isUnprintable c || Ignorable.isIgnorable c || Extender.isExtender c)

/-- The form of a character between quotation marks. -/
def escape (c : Char) : List Char :=
  match c with
  | '"' => ['\\', '"']
  | '\\' => ['\\', '\\']
  | '\n' => ['\\', 'n']
  | '\r' => ['\\', 'r']
  | '\t' => ['\\', 't']
  | '\x00' => ['\\', '0']
  | _ =>
    if isVisible c then [c]
    else '\\' :: 'u' :: '\x7b' :: lowerDigits c.toNat ++ ['\x7d']

/-- The text between quotation marks. -/
def quote (text : String) : String :=
  String.ofList ('"' :: text.toList.flatMap escape ++ ['"'])

example : quote "a \"b\"\u00a0\t" = "\"a \\\"b\\\"\\u\x7ba0\x7d\\t\"" := by decide +kernel

end W65C816.Text.Quoted
