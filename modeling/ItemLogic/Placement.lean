import ItemLogic.Atlas

/-!
# Placements

A placement binds keys to item identities, or to nothing, which empties a
location. It is applied as a whole: every key is resolved before anything is
placed, and then the entries are placed in order of their keys.
-/

namespace ItemLogic

/-- What lies where, by key. -/
structure Placement where
  entries : KeyMap (Option ItemId)

namespace Placement

/-- What the locations of an atlas hold. -/
def ofAtlas (a : Atlas) : Placement :=
  ⟨.ofList (a.locations.map fun l => (l.key, l.item.map Item.id))⟩

/-- The least key that resolves to no location. -/
def unresolved? (p : Placement) (a : Atlas) : Option Key :=
  p.entries.keys.find? fun key => (a.find? key).isNone

/-- Places one entry, its item looked up in a catalog. -/
def placeEntry (catalog : Catalog) (a : Atlas) (entry : Key × Option ItemId) :
    Except Fault Atlas :=
  a.place entry.1 (entry.2.map catalog)

/-- Places every entry, unless a key resolves to no location. -/
def apply (p : Placement) (catalog : Catalog) (a : Atlas) : Except Fault Atlas :=
  match p.unresolved? a with
  | some key => .error (.unknownLocation key)
  | none => p.entries.entries.foldlM (placeEntry catalog) a

end Placement

end ItemLogic
