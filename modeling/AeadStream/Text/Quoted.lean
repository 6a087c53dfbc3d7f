import AeadStream.Text.Printable

/-!
# Quoted text

How a text or a character is shown inside a message for programmers: in quotes, with
everything that would not be seen escaped. A quote is escaped only where it would end the
text, so `"` stands as it is inside single quotes and `'` inside double quotes.
-/

namespace AeadStream.Text

/-- The code point in lowercase hexadecimal digits, as few as possible, in braces. -/
def escapedCode (c : Char) : String :=
  "\\u\x7b" ++ String.ofList (Nat.toDigits 16 c.toNat) ++ "\x7d"

/-- One character of a text that `delimiter` encloses. -/
def escaped (delimiter c : Char) : String :=
  if c = Char.ofNat 0 then "\\0"
  else if c = '\t' then "\\t"
  else if c = '\r' then "\\r"
  else if c = '\n' then "\\n"
  else if c = '\\' then "\\\\"
  else if c = delimiter then String.ofList ['\\', c]
  else if isExtending c then escapedCode c
  else if isPrintable c then c.toString
  else escapedCode c

/-- **Quoted text,** in double quotes. -/
def quoted (s : String) : String :=
  "\"" ++ String.join (s.toList.map (escaped '"')) ++ "\""

/-- **A quoted character,** in single quotes. -/
def quotedChar (c : Char) : String :=
  "'" ++ escaped (Char.ofNat 39) c ++ "'"

/-! ## Shown values -/

/-- A value shown as its name and its labelled fields. -/
def record (name : String) (fields : List (String × String)) : String :=
  let shown := fields.map fun f => f.1 ++ ": " ++ f.2
  name ++ " \x7b " ++ ", ".intercalate shown ++ " \x7d"

/-- A value shown as its name and its parts in order. -/
def application (name : String) (parts : List String) : String :=
  name ++ "(" ++ ", ".intercalate parts ++ ")"

/-- A secret value, of which only the name is shown. -/
def redacted (name : String) : String := application name ["<redacted>"]

/-- A sequence shown with its items in brackets. -/
def sequence (items : List String) : String := "[" ++ ", ".intercalate items ++ "]"

end AeadStream.Text
