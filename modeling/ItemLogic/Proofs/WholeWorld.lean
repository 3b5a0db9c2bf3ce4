import ItemLogic.Proofs.FilledWorld
import ItemLogic.Proofs.Wiring

/-!
# The whole world

The world of a game comes about for all options and all catalogs. It has as many locations as
the options announce, although the number is computed apart from the list of slots. A key names
one location at most: no two locations share a key, and a location that stands for a room has the
room to itself, so a key that is found by itself is not found by its room as well. No gate is
closed to a player who holds everything: a gate has an alternative as soon as those it is wired
from have one.
-/

namespace ItemLogic

namespace Gate

/-- A player who holds everything holds something of every set. -/
theorem anyOf_opens_full (s : CapSet) : (anyOf s).opens .full = true := by
  rw [opens_anyOf]
  by_cases nothing : s = ∅
  · exact .inl nothing
  · obtain ⟨c, member⟩ := CapSet.exists_mem_of_ne_empty nothing
    exact .inr ⟨c, member, CapSet.mem_full c⟩

/-- Gates that are wired from sets open to a player who holds everything. -/
theorem compatible_opens_full : Compatible fun g _ => g.opens .full = true where
  needs s _ := by simp
  anyOf s _ := anyOf_opens_full s
  and left right := by rw [opens_and, left, right]; rfl
  or left right := by rw [opens_or, left, right]; rfl

end Gate

namespace World

/-! ### The number of slots -/

/-- The number of slots in some areas. -/
def slotCount (areas : List Area) : Nat := (areas.flatMap (·.slots)).length

/-- The slots of two lists of areas add up. -/
theorem slotCount_append (first second : List Area) :
    slotCount (first ++ second) = slotCount first + slotCount second := by
  rw [slotCount, List.flatMap_append, List.length_append, slotCount, slotCount]

/-- A group counts when it is called for. -/
theorem slotCount_optional (called : Bool) (group : List Area) :
    slotCount (if called then group else []) = if called then slotCount group else 0 := by
  cases called <;> rfl

/-- The slots that are there whatever the options. -/
theorem slotCount_base : slotCount (present ++ past ++ pyramid) = baseCount := by
  rfl

/-- The slots that options call for are as many as the options announce. -/
theorem length_keys (o : Options) : (keys o).length = expectedCount o := by
  have slots : ((areas o).flatMap fun area => area.slots.map (·.key)).length =
      slotCount (areas o) := by
    rw [slotCount, ← List.map_flatMap, List.length_map]
  have start : (if o.startWithTalaria then [Key.start] else []).length =
      if o.startWithTalaria then 1 else 0 := by
    cases o.startWithTalaria <;> rfl
  have groups : slotCount gyre = 9 ∧ slotCount terminals = 14 ∧ slotCount cantoran = 1 ∧
      slotCount lore = 22 := ⟨rfl, rfl, rfl, rfl⟩
  obtain ⟨gyre, terminals, cantoran, lore⟩ := groups
  rw [keys, List.length_append, slots, start, areas, slotCount_append, slotCount_append,
    slotCount_append, slotCount_append, slotCount_base, slotCount_optional, slotCount_optional,
    slotCount_optional, slotCount_optional, gyre, terminals, cantoran, lore, expectedCount]
  omega

/-! ### Gates -/

/-- Every slot opens to a player who holds everything. -/
theorem slot_opens_full (o : Options) {area : Area} (known : area ∈ areas everywhere) {slot : Slot}
    (listed : slot ∈ area.slots) : (slot.gate (.ofOptions o)).opens .full = true := by
  have regions : (Regions.ofOptions o).Correspond (fun g _ => g.opens .full = true)
      (.ofOptions o) :=
    correspond_ofOptions Gate.compatible_opens_full rfl (by simp) (by simp)
  by_cases crystal : slot.key = plasmaCrystal
  · rw [gate_of_key_eq_plasmaCrystal _ area known slot listed crystal, Regions.crystalGate,
      Gate.opens_and, Gate.anyOf_opens_full, Bool.and_true]
    exact regions.gates (·.lowerCavesOfBanishment) (by simp [Regions.gates])
  · exact regions.slots Gate.compatible_opens_full area known slot listed crystal

/-- Every location of the world opens to a player who holds everything. -/
theorem location_opens_full {catalog : Catalog} {o : Options} {l : Location}
    (member : l ∈ locations catalog o) : l.gate.opens .full = true := by
  rcases mem_locations.mp member with ⟨area, known, slot, listed, rfl⟩ | ⟨_, rfl⟩
  · exact slot_opens_full o ((areas_sublist o).subset known) listed
  · exact Gate.opens_free .full

/-! ### The world -/

/-- The world can be built for all options, catalogs and unlocks. It has the announced number of
    locations, no two with one key; whatever lies in the room of a location that stands for the
    room is that location, so no key but that of a room is found both by itself and by its room;
    and all of it is reachable with everything in hand. -/
theorem world_is_whole (catalog : Catalog) (unlocks : Unlocks) (o : Options) :
    ∃ w, build catalog unlocks o = .ok w ∧ w.size = expectedCount o ∧ w.keys.Nodup ∧
      (∀ l ∈ w.locations, l.key.isRoom = true →
        ∀ m ∈ w.locations, m.key.toRoom = l.key.toRoom → m = l) ∧
      (∀ key, w.index.contains key = true → w.index.contains key.toRoom = true →
        key.isRoom = true) ∧
      w.reachable .full = w.locations := by
  obtain ⟨w, built, all⟩ := exists_build_locations catalog unlocks o
  have coherent := coherent_of_build built
  have slots : w.keys = keys o := by rw [Atlas.keys, all, keys_locations]
  have alone : w.RoomsAlone := roomsAlone_of_keys slots
  refine ⟨w, built, ?_, coherent.nodup, ?_, ?_, ?_⟩
  · rw [Atlas.size, ← length_keys, ← slots, Atlas.keys, List.length_map]
  · intro l present isRoom m member together
    rw [Key.toRoom_of_isRoom isRoom] at together
    have known : m.key.toRoom ∈ w.keys := together ▸ List.mem_map_of_mem present
    have own : m.key.toRoom = m.key := alone m.key (List.mem_map_of_mem member) known
    exact coherent.eq_of_key_eq member present (own.symm.trans together)
  · intro key own room
    rw [coherent.contains_iff] at own room
    rw [← alone key own room]
    rfl
  · refine List.filter_eq_self.mpr fun l member => ?_
    rw [all] at member
    exact location_opens_full member

end World

end ItemLogic
