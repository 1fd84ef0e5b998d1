/-!
# Layouts of JSON objects

An object is written from its members in the order given, each with its value already written.
The compact layout puts no space anywhere; the indented one gives each member a line of its own
behind two spaces. Keys and strings are written as they are, which is right for text without
quotation marks, backslashes and control characters.
-/

set_option autoImplicit false

namespace W65C816.Text.Json.Layout

/-- A string between quotation marks. -/
def quoted (text : String) : String :=
  "\"" ++ text ++ "\""

def truth (value : Bool) : String :=
  if value then "true" else "false"

/-- An object on one line. -/
def compact (members : List (String × String)) : String :=
  "\x7b" ++ ",".intercalate (members.map fun (key, value) => quoted key ++ ":" ++ value) ++ "\x7d"

/-- An object with each member on a line of its own. -/
def indented (members : List (String × String)) : String :=
  "\x7b\n" ++
    ",\n".intercalate (members.map fun (key, value) => "  " ++ quoted key ++ ": " ++ value) ++
    "\n\x7d"

example : compact [("a", "1"), ("b", truth true)] = "\x7b\"a\":1,\"b\":true\x7d" := by
  decide +kernel

end W65C816.Text.Json.Layout
