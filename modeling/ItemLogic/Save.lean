import ItemLogic.Key.Map

/-!
# Saves

A save names the slots that the player has collected. A room key in a save counts
for every slot of its room.
-/

namespace ItemLogic

/-- The collected keys of a game. -/
structure Save where
  collected : KeySet

namespace Save

/-- The save of the keys in a list. -/
def ofKeys (keys : List Key) : Save := ⟨KeySet.ofKeys keys⟩

/-- Whether a key is collected, by itself or with its room. -/
def isCollected (save : Save) (key : Key) : Bool :=
  save.collected.contains key || save.collected.contains key.toRoom

end Save

end ItemLogic
