import ItemLogic.Fault
import ItemLogic.Text.Split

/-!
# Reading keys

A key is read from two or four decimal integers separated by full stops; blanks
around the text and around each part do not count, and an integer may carry a
sign and leading zeros as long as its value is a signed 32-bit word.
-/

namespace ItemLogic.Key

/-- A coordinate: an integer within the range of a signed 32-bit word. -/
def coordinate? (part : List Char) : Option Int32 :=
  match Text.integer? (Text.trim part) with
  | some value =>
    if Int32.minValue.toInt ≤ value ∧ value ≤ Int32.maxValue.toInt then some (Int32.ofInt value)
    else none
  | none => none

/-- The key with the given coordinates, of which there are two or four. -/
def ofCoordinates? : List Int32 → Option Key
  | [level, room] => some (ofRoom level room)
  | [level, room, x, y] => some (spot level room x y)
  | _ => none

/-- The key that a text denotes. -/
def ofChars? (cs : List Char) : Option Key :=
  ((Text.split (· == '.') (Text.trim cs)).mapM coordinate?).bind ofCoordinates?

/-- Reads a key; the fault quotes the text as it was given. -/
def parse (text : String) : Except Fault Key :=
  match ofChars? text.toList with
  | some key => .ok key
  | none => .error (.invalidKey text)

end ItemLogic.Key
