import ItemLogic.Json.Reader
import ItemLogic.Json.Writer
import ItemLogic.Key.Text

/-!
# Stored keys

A key is stored as a string of its text form, as a value or as the name of a
field, and a string that is no key is a fault of its own.
-/

namespace ItemLogic.Key

/-- The key that a string of a JSON text stands for. -/
def ofStored (text : String) : Except JsonFault Key :=
  match ofChars? text.toList with
  | some key => .ok key
  | none => .error (.badKey text)

/-- A key as a value. -/
def stored : Json.Reader Key := fun cs => do
  let (text, cs) ← Json.string cs
  let key ← ofStored text
  return (key, cs)

/-- The stored form of a key. -/
def json (key : Key) : String := Json.quoted key.text

end ItemLogic.Key
