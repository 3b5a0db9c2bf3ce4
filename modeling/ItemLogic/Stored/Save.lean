import ItemLogic.Json.Skip
import ItemLogic.Save
import ItemLogic.Stored.Key

/-!
# Stored saves

A save is stored as an object whose field `collected` is an array of keys. When
it is read the field may be left out, but not given twice, and other fields may be
there. A bare array stands for the values of the fields in order.
-/

namespace ItemLogic.Save

open Json (Reader)

/-- One more key of an array of keys. -/
def storedKey (keys : KeySet) : Reader KeySet := fun cs =>
  (Key.stored cs).map fun (key, cs) => (keys.insert key (), cs)

/-- An array of keys. -/
def storedKeys : Reader KeySet := Json.array storedKey ∅

/-- One field of a stored save; the keys are there once they have been read. -/
def storedField (state : Option KeySet) (name : String) :
    Except JsonFault (Reader (Option KeySet)) :=
  if name == "collected" then
    if state.isSome then .error .malformed
    else .ok fun cs => (storedKeys cs).map fun (keys, cs) => (some keys, cs)
  else .ok fun cs => (Json.skipValue cs).map fun (_, cs) => (state, cs)

/-- One element of a save stored as an array, of which there is at most one. -/
def storedElement (state : Option KeySet) : Reader (Option KeySet) := fun cs =>
  if state.isSome then .error .malformed
  else (storedKeys cs).map fun (keys, cs) => (some keys, cs)

/-- A stored save, in either form. -/
def stored : Reader Save := fun cs =>
  let fields : Except JsonFault (Option KeySet × List Char) :=
    match Json.skipBlanks cs with
    | '[' :: _ => Json.array storedElement none cs
    | _ => Json.object storedField none cs
  fields.map fun (keys, cs) => (⟨keys.getD ∅⟩, cs)

/-- Reads a stored save. -/
def ofJson (text : String) : Except Fault Save := (Json.document stored text).mapError .json

/-- The stored form: the collected keys in order, without blanks. -/
def json (save : Save) : String :=
  Json.compactObject [("collected", Json.compactArray (save.collected.keys.map Key.json))]

end ItemLogic.Save
