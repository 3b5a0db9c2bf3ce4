import ItemLogic.Json.Skip
import ItemLogic.Json.Writer
import ItemLogic.Options

/-!
# Stored options

Options are stored as an object with a truth value for every switch. When they
are read, switches may be left out and other fields may be there, but no switch
twice. A bare array of truth values stands for the first switches in order.
-/

namespace ItemLogic.Options

open Json (Reader)

/-- One field of stored options, after those of some switches have been read. -/
def storedField (state : Options × List Toggle) (name : String) :
    Except JsonFault (Reader (Options × List Toggle)) :=
  match Toggle.named? name with
  | none => .ok fun cs => (Json.skipValue cs).map fun (_, cs) => (state, cs)
  | some toggle =>
    if state.2.contains toggle then .error .malformed
    else .ok fun cs => (Json.bool cs).map fun (value, cs) =>
      ((state.1.set toggle value, toggle :: state.2), cs)

/-- One element of options stored as an array, given the switches that are left. -/
def storedElement (state : Options × List Toggle) : Reader (Options × List Toggle) := fun cs =>
  match state.2 with
  | [] => .error .malformed
  | toggle :: left => (Json.bool cs).map fun (value, cs) => ((state.1.set toggle value, left), cs)

/-- Stored options, in either form. -/
def stored : Reader Options := fun cs =>
  match Json.skipBlanks cs with
  | '[' :: _ => (Json.array storedElement ({}, Toggle.all) cs).map fun (state, cs) => (state.1, cs)
  | _ => (Json.object storedField ({}, []) cs).map fun (state, cs) => (state.1, cs)

/-- Reads stored options. -/
def ofJson (text : String) : Except Fault Options := (Json.document stored text).mapError .json

/-- The stored form: every switch in order, without blanks. -/
def json (o : Options) : String :=
  Json.compactObject (Toggle.all.map fun toggle => (toggle.name, Json.ofBool (o.isOn toggle)))

end ItemLogic.Options
