import ItemLogic.History
import ItemLogic.Placement

/-!
# Calls in place

An atlas may also be changed in place, one assignment after the other. A fault then stops a
call where it is, and whatever was assigned before stays. Nothing undoes half a call, so a
refused one leaves the atlas whole only where it is refused before its first assignment.
-/

namespace ItemLogic

/-- Assignments to an atlas, stopped by the first fault. -/
abbrev InPlace := EStateM Fault Atlas

namespace InPlace

/-- Registers the chain of an item found in stages. -/
def register (item : Option Item) : InPlace Unit :=
  modify fun a => { a with chains := Atlas.register a.chains item }

/-- Adds a location: its chain is registered, its key indexed, and last it is appended. -/
def add (l : Location) : InPlace Unit := do
  if (← get).index.contains l.key then throw (.duplicateLocation l.key)
  register l.item
  modify fun a => { a with index := a.index.insert l.key a.locations.length }
  modify fun a => { a with locations := a.locations ++ [l] }

/-- Puts an item, or nothing, into the location that a key resolves to. -/
def place (key : Key) (item : Option Item) : InPlace Unit := do
  match (← get).position? key with
  | none => throw (.unknownLocation key)
  | some i =>
    register item
    modify fun a => { a with locations := a.locations.modify i fun l => { l with item } }

/-- Resolves every key of a placement, and then places its entries one by one. -/
def apply (p : Placement) (catalog : Catalog) : InPlace Unit := do
  match p.unresolved? (← get) with
  | some key => throw (.unknownLocation key)
  | none => p.entries.entries.forM fun entry => place entry.1 (entry.2.map catalog)

/-- Marks the location that a key resolves to, and says whether there is one. -/
def pickUp (key : Key) : InPlace Bool := do
  match (← get).position? key with
  | none => return false
  | some i =>
    modify fun a =>
      { a with locations := a.locations.modify i fun l => { l with pickedUp := true } }
    return true

/-- Starts a session from a save: first the chains start over, then the marks are taken. -/
def resume (save : Save) : InPlace Unit := do
  modify fun a => { a with chains := a.chains.map fun entry => (entry.1, entry.2.restarted) }
  modify fun a => { a with locations := a.locations.map fun l =>
    { l with pickedUp := l.key = .start || save.isCollected l.key } }

/-- Sets another goal. -/
def setGoal (goal : Gate) : InPlace Unit := modify fun a => { a with goal }

end InPlace

/-- A call on an atlas: one change, or a whole placement filled through a catalog. -/
inductive Call
  | change (change : Change)
  | apply (placement : Placement) (catalog : Catalog)

namespace Call

/-- The assignments of a call. -/
def perform : Call → InPlace Unit
  | change (.add l) => InPlace.add l
  | change (.place key item) => InPlace.place key item
  | change (.pickUp key) => do
    let _ ← InPlace.pickUp key
  | change (.resume save) => InPlace.resume save
  | change (.setGoal goal) => InPlace.setGoal goal
  | apply p catalog => InPlace.apply p catalog

/-- The atlas that a call gives, or the fault for which it is refused. -/
def outcome (a : Atlas) : Call → Except Fault Atlas
  | change (.add l) => a.add l
  | change (.place key item) => a.place key item
  | change other => .ok (a.after other)
  | apply p catalog => p.apply catalog a

end Call

namespace Atlas

/-- What a call leaves that is refused, if at all, before its first assignment. -/
def settled (a : Atlas) : Except Fault Atlas → EStateM.Result Fault Atlas Unit
  | .ok b => .ok () b
  | .error fault => .error fault a

/-- The atlas as a call leaves it, whether or not a fault stopped the call. -/
def left (a : Atlas) (call : Call) : Atlas :=
  match call.perform.run a with
  | .ok _ b => b
  | .error _ b => b

/-- The atlas as calls made one after the other leave it. -/
def afterCalls (a : Atlas) (calls : List Call) : Atlas := calls.foldl left a

end Atlas

end ItemLogic
