import ItemLogic.Fault
import ItemLogic.Item.Catalog
import ItemLogic.Location
import ItemLogic.Save
import ItemLogic.World.Regions

/-!
# Atlases

An atlas holds the locations of one game in the order in which they were added,
an index from keys to positions, and one chain for each item found in stages,
which all copies of the item share. Building and placing change locations and
register chains; a session changes only which locations are picked up. A
refused change leaves the atlas as it was, since the refusal is decided first.
-/

namespace ItemLogic

/-- The locations of one game. -/
structure Atlas where
  locations : List Location
  /-- The position of each location by its key. -/
  index : KeyMap Nat
  /-- The chain that the copies of an item share, by the item. -/
  chains : List (ItemId × Chain)
  /-- What has to be opened to win. -/
  goal : Gate
  options : Options
  unlocks : Unlocks

namespace Atlas

/-- An atlas without locations, whose goal is the gate of the nightmare. -/
def empty (unlocks : Unlocks) (options : Options) : Atlas where
  locations := []
  index := ∅
  chains := []
  goal := (World.Regions.ofOptions options).nightmare
  options
  unlocks

/-- The number of locations. -/
def size (a : Atlas) : Nat := a.locations.length

/-- The position of the location with a key, or else of the one keyed by its room. -/
def position? (a : Atlas) (key : Key) : Option Nat :=
  (a.index.find? key).or (a.index.find? key.toRoom)

/-- The location that a key resolves to. -/
def find? (a : Atlas) (key : Key) : Option Location :=
  (a.position? key).bind fun i => a.locations[i]?

/-- The chain that the copies of an item share. -/
def chain? (a : Atlas) (id : ItemId) : Option Chain := a.chains.lookup id

/-- Registers the chain of an item found in stages, unless its identity has one. -/
def register (chains : List (ItemId × Chain)) : Option Item → List (ItemId × Chain)
  | some (.progressive id chain) =>
    if (chains.lookup id).isSome then chains else chains ++ [(id, chain.restarted)]
  | _ => chains

/-- Adds a location; its key must be new. -/
def add (a : Atlas) (l : Location) : Except Fault Atlas :=
  if a.index.contains l.key then .error (.duplicateLocation l.key)
  else .ok { a with
    locations := a.locations ++ [l]
    index := a.index.insert l.key a.locations.length
    chains := register a.chains l.item }

/-- Puts an item, or nothing, into the location that a key resolves to. -/
def place (a : Atlas) (key : Key) (item : Option Item) : Except Fault Atlas :=
  match a.position? key with
  | some i => .ok { a with
    locations := a.locations.modify i fun l => { l with item }
    chains := register a.chains item }
  | none => .error (.unknownLocation key)

/-- Marks the location that a key resolves to as picked up; says nothing when there is none. -/
def pickUp? (a : Atlas) (key : Key) : Option Atlas :=
  (a.position? key).map fun i =>
    { a with locations := a.locations.modify i fun l => { l with pickedUp := true } }

/-- Takes the state of a session from a save: chains start over, and a location
    is picked up when the save says so or it holds what the player starts with. -/
def resume (a : Atlas) (save : Save) : Atlas :=
  { a with
    chains := a.chains.map fun (id, chain) => (id, chain.restarted)
    locations := a.locations.map fun l =>
      { l with pickedUp := l.key = .start || save.isCollected l.key } }

/-- The atlas with another goal. -/
def withGoal (a : Atlas) (goal : Gate) : Atlas := { a with goal }

/-- The locations whose gate opens to a held set. -/
def reachable (a : Atlas) (held : CapSet) : List Location :=
  a.locations.filter (·.gate.opens held)

/-- The reachable locations whose item can grant something. -/
def reachableProgression (a : Atlas) (held : CapSet) : List Location :=
  (a.reachable held).filter (·.holdsProgression)

end Atlas

end ItemLogic
