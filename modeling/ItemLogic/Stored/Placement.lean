import ItemLogic.Placement
import ItemLogic.Stored.ItemId
import ItemLogic.Stored.Key

/-!
# Stored placements

A placement is stored as an object from keys to identities or `null`. Two names
that are spellings of one key bind the same key, and the last one stays. A name
that is no key is refused before its value is looked at.
-/

namespace ItemLogic.Placement

open Json (Reader)

/-- An identity, or `null` for no item. -/
def storedItem : Reader (Option ItemId) := fun cs =>
  match Json.skipBlanks cs with
  | 'n' :: _ => (Json.null cs).map fun (_, cs) => (none, cs)
  | _ => (ItemId.stored cs).map fun (id, cs) => (some id, cs)

/-- One field of a stored placement. -/
def storedField (entries : KeyMap (Option ItemId)) (name : String) :
    Except JsonFault (Reader (KeyMap (Option ItemId))) := do
  let key ← Key.ofStored name
  return fun cs => (storedItem cs).map fun (item, cs) => (entries.insert key item, cs)

/-- A stored placement. -/
def stored : Reader Placement := fun cs =>
  (Json.object storedField ∅ cs).map fun (entries, cs) => (⟨entries⟩, cs)

/-- Reads a stored placement. -/
def ofJson (text : String) : Except Fault Placement := (Json.document stored text).mapError .json

/-- The stored form of an entry's value. -/
def itemJson : Option ItemId → String
  | some id => id.json 1
  | none => "null"

/-- The stored form: one entry to a line in order of the keys. -/
def json (p : Placement) : String :=
  Json.prettyObject 0 (p.entries.entries.map fun (key, item) => (key.text, itemJson item))

end ItemLogic.Placement
