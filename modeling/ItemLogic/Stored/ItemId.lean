import ItemLogic.Item.Id
import ItemLogic.Json.Reader
import ItemLogic.Json.Writer

/-!
# Stored item identities

An identity is stored as an object with one field: its kind, and the name of the
item, or for an orb the array of the names of element and slot. A name may also
be written as an object with the name as its one field and `null` in it.
-/

namespace ItemLogic.ItemId

open Json (Reader)

/-- What a name stands for; other names are faults. -/
def ofStoredName {α : Type} (named? : String → Option α) (name : String) : Except JsonFault α :=
  match named? name with
  | some value => .ok value
  | none => .error .malformed

/-- A name of a kind, as a string or as an object with `null` under it. -/
def storedName {α : Type} (named? : String → Option α) : Reader α := fun cs =>
  match Json.skipBlanks cs with
  | '{' :: cs => do
    let (name, cs) ← Json.string cs
    let value ← ofStoredName named? name
    let (_, cs) ← Json.symbol ':' cs
    let (_, cs) ← Json.null cs
    let (_, cs) ← Json.symbol '}' cs
    return (value, cs)
  | cs => do
    let (name, cs) ← Json.string cs
    let value ← ofStoredName named? name
    return (value, cs)

/-- The names of an orb: its element and its slot. -/
def storedOrb : Reader ItemId := fun cs => do
  let (_, cs) ← Json.symbol '[' cs
  let (element, cs) ← storedName Orb.named? cs
  let (_, cs) ← Json.symbol ',' cs
  let (slot, cs) ← storedName OrbSlot.named? cs
  let (_, cs) ← Json.symbol ']' cs
  return (.orb element slot, cs)

/-- A reader for the names of a kind that makes identities of them. -/
def storedAs {α : Type} (named? : String → Option α) (identity : α → ItemId) : Reader ItemId :=
  fun cs => (storedName named? cs).map fun (value, cs) => (identity value, cs)

/-- The reader of the names that belong to a kind. -/
def storedKind (kind : String) : Except JsonFault (Reader ItemId) :=
  if kind == "UseItem" then .ok (storedAs UseItem.named? .useItem)
  else if kind == "Relic" then .ok (storedAs Relic.named? .relic)
  else if kind == "Orb" then .ok storedOrb
  else if kind == "Equipment" then .ok (storedAs Equipment.named? .equipment)
  else if kind == "Familiar" then .ok (storedAs Familiar.named? .familiar)
  else if kind == "Stat" then .ok (storedAs Stat.named? .stat)
  else if kind == "Progressive" then .ok (storedAs Upgrade.named? .upgrade)
  else .error .malformed

/-- A stored identity. -/
def stored : Reader ItemId := fun cs => do
  let (_, cs) ← Json.symbol '{' cs
  let (kind, cs) ← Json.string cs
  let reader ← storedKind kind
  let (_, cs) ← Json.symbol ':' cs
  let (id, cs) ← reader cs
  let (_, cs) ← Json.symbol '}' cs
  return (id, cs)

/-- The stored form of an identity at some depth, one value to a line. -/
def json (depth : Nat) : ItemId → String
  | .useItem item => field "UseItem" (Json.quoted item.name)
  | .relic item => field "Relic" (Json.quoted item.name)
  | .orb element slot =>
    field "Orb" (Json.prettyArray (depth + 1) [Json.quoted element.name, Json.quoted slot.name])
  | .equipment item => field "Equipment" (Json.quoted item.name)
  | .familiar item => field "Familiar" (Json.quoted item.name)
  | .stat item => field "Stat" (Json.quoted item.name)
  | .upgrade item => field "Progressive" (Json.quoted item.name)
where
  field (kind value : String) : String := Json.prettyObject depth [(kind, value)]

end ItemLogic.ItemId
