import ItemLogic.Chain
import ItemLogic.Item.Id

/-!
# Items

What a location hands out on pickup: an item that unlocks a fixed set, or one
copy of an item that is found in stages, all copies of which advance one chain.
-/

namespace ItemLogic

/-- What a location hands out. -/
inductive Item
  /-- An item that unlocks a fixed set. -/
  | simple (id : ItemId) (unlocks : CapSet)
  /-- A copy of an item found in stages. -/
  | progressive (id : ItemId) (chain : Chain)
  deriving DecidableEq

namespace Item

/-- The identity of an item. -/
def id : Item → ItemId
  | simple id _ => id
  | progressive id _ => id

/-- Whether the item is found in stages. -/
def isProgressive : Item → Bool
  | simple _ _ => false
  | progressive _ _ => true

/-- The sets that an item can grant, one for each stage. -/
def grants : Item → List CapSet
  | simple _ unlocks => [unlocks]
  | progressive _ chain => chain.stages

/-- Everything that an item can ever grant. -/
def possibleUnlocks (item : Item) : CapSet := .unionAll item.grants

/-- Whether picking the item up can grant anything. -/
def isProgression (item : Item) : Bool := item.possibleUnlocks ≠ ∅

end Item

end ItemLogic
