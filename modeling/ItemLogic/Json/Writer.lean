/-!
# Writing JSON

Strings with the characters that must not stand in them escaped, and objects and
arrays either without blanks or with one value to a line.
-/

namespace ItemLogic.Json

/-- A character as it stands in a string: quotes, backslashes and control
    characters are escaped, by one letter where there is one. -/
def escape (c : Char) : List Char :=
  if c = '"' then ['\\', '"']
  else if c = '\\' then ['\\', '\\']
  else if c = '\x08' then ['\\', 'b']
  else if c = '\x0c' then ['\\', 'f']
  else if c = '\n' then ['\\', 'n']
  else if c = '\r' then ['\\', 'r']
  else if c = '\t' then ['\\', 't']
  else if c < ' ' then
    ['\\', 'u', '0', '0', Nat.digitChar (c.toNat / 16), Nat.digitChar (c.toNat % 16)]
  else [c]

/-- A string. -/
def quoted (content : String) : String :=
  String.ofList ('"' :: (content.toList.flatMap escape ++ ['"']))

/-- The literal of a truth value. -/
def ofBool (value : Bool) : String := if value then "true" else "false"

/-- An object without blanks. -/
def compactObject (fields : List (String × String)) : String :=
  "\x7b" ++ ",".intercalate (fields.map fun (name, value) => quoted name ++ ":" ++ value) ++ "\x7d"

/-- An array without blanks. -/
def compactArray (elements : List String) : String := "[" ++ ",".intercalate elements ++ "]"

/-- A line break and the blanks in front of a value at some depth. -/
def lineBreak (depth : Nat) : String := "\n" ++ String.ofList (List.replicate (2 * depth) ' ')

/-- Values with brackets around them, one to a line, at the depth of the brackets. -/
def lines (opening closing : String) (depth : Nat) (values : List String) : String :=
  if values.isEmpty then opening ++ closing
  else
    opening ++ lineBreak (depth + 1) ++ ("," ++ lineBreak (depth + 1)).intercalate values ++
      lineBreak depth ++ closing

/-- An object with one field to a line. -/
def prettyObject (depth : Nat) (fields : List (String × String)) : String :=
  lines "\x7b" "\x7d" depth (fields.map fun (name, value) => quoted name ++ ": " ++ value)

/-- An array with one element to a line. -/
def prettyArray (depth : Nat) (elements : List String) : String := lines "[" "]" depth elements

end ItemLogic.Json
