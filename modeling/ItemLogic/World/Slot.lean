import ItemLogic.Item.Catalog
import ItemLogic.Key.Basic
import ItemLogic.World.Regions

/-!
# Slots

The world is listed by areas. A slot of an area has a key, a name, the item that
lies there unless a placement says otherwise, and a gate that is wired from the
gates of the regions.
-/

namespace ItemLogic.World

/-- One slot as the world lists it. -/
structure Slot where
  key : Key
  name : String
  item : Option ItemId
  gate : Regions → Gate

/-- Slots that share the name of an area. -/
structure Area where
  name : String
  slots : List Slot

end ItemLogic.World
