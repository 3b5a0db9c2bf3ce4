import ItemLogic.Gate.Basic
import ItemLogic.Item.Basic
import ItemLogic.Key.Basic

/-!
# Locations

One slot of the world in a game: where it is, what guards it, what it holds, and
whether the player has collected it. Nothing but the player collects.
-/

namespace ItemLogic

/-- A slot in a game. -/
structure Location where
  key : Key
  area : String
  name : String
  gate : Gate
  item : Option Item
  pickedUp : Bool
  deriving DecidableEq

namespace Location

/-- Whether the location holds an item that can grant anything. -/
def holdsProgression (l : Location) : Bool := l.item.any Item.isProgression

/-- Area, name and key, and the item if there is one. -/
def text (l : Location) : String :=
  let place := l.area ++ " - " ++ l.name ++ " [" ++ l.key.text ++ "]"
  match l.item with
  | some item => place ++ ": " ++ item.id.text
  | none => place

end Location

end ItemLogic
