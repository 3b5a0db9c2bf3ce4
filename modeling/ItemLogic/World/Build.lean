import ItemLogic.Atlas
import ItemLogic.World.Optional
import ItemLogic.World.Past
import ItemLogic.World.Present

/-!
# Building the world

The world of a game is the present, the past and the pyramid, then the optional
groups whose options are on, and last the item that the player may start with,
which is picked up from the beginning.
-/

namespace ItemLogic.World

/-- The slots that options call for, by area, in the order in which they are listed. -/
def areas (o : Options) : List Area :=
  present ++ past ++ pyramid ++
    (if o.gyreArchives then gyre else []) ++
    (if o.downloadableItems then terminals else []) ++
    (if o.cantoran then cantoran else []) ++
    (if o.loreChecks then lore else [])

/-- The location of a slot. -/
def Slot.location (slot : Slot) (area : String) (regions : Regions) (catalog : Catalog) :
    Location where
  key := slot.key
  area
  name := slot.name
  gate := slot.gate regions
  item := slot.item.map catalog
  pickedUp := false

/-- The item that the player starts with: a location that is open and picked up. -/
def talaria (catalog : Catalog) : Location where
  key := .start
  area := "Starting Items"
  name := "Talaria Attachment"
  gate := .free
  item := some (catalog (.relic .dash))
  pickedUp := true

/-- The locations that options call for, filled through a catalog. -/
def locations (catalog : Catalog) (o : Options) : List Location :=
  let regions := Regions.ofOptions o
  (areas o).flatMap (fun area => area.slots.map (·.location area.name regions catalog)) ++
    (if o.startWithTalaria then [talaria catalog] else [])

/-- The number of locations that are there whatever the options. -/
def baseCount : Nat := 166

/-- The number of locations that options call for. -/
def expectedCount (o : Options) : Nat :=
  baseCount + (if o.startWithTalaria then 1 else 0) + (if o.downloadableItems then 14 else 0) +
    (if o.gyreArchives then 9 else 0) + (if o.cantoran then 1 else 0) +
    (if o.loreChecks then 22 else 0)

/-- The atlas of the whole world. -/
def build (catalog : Catalog) (unlocks : Unlocks) (o : Options) : Except Fault Atlas :=
  (locations catalog o).foldlM Atlas.add (.empty unlocks o)

end ItemLogic.World
