import ItemLogic.Proofs.Placing
import ItemLogic.Proofs.Provenance
import ItemLogic.Proofs.WorldKeys

/-!
# Filled worlds

The world of a game is built through a catalog, and a placement is applied to it through the
same catalog. All of this is a history that brings nothing but items of the catalog. In the
standard catalog only the merged keycard is found in stages, so the copies in a filled world
agree, and the identity of an item that lies in it stands for the item.
-/

namespace ItemLogic

namespace Catalog

variable {o : Options} {unlocks : Unlocks}

/-- The only item of the standard catalog that is found in stages is the merged keycard. -/
theorem standard_progressive {id name : ItemId} {chain : Chain}
    (found : standard o unlocks id = .progressive name chain) :
    Item.progressive name chain = stagedKeycard := by
  cases id with
  | relic relic =>
    rw [standard] at found
    split at found
    · exact found.symm
    · cases found
  | upgrade upgrade =>
    cases upgrade
    exact found.symm
  | _ => cases found

/-- The standard catalog gives for the identity of its item the item again. -/
theorem standard_id (o : Options) (unlocks : Unlocks) (id : ItemId) :
    standard o unlocks (standard o unlocks id).id = standard o unlocks id := by
  cases id with
  | relic relic =>
    rw [standard]
    split
    · rfl
    · rename_i single
      rw [Item.id, standard, if_neg single]
  | upgrade upgrade =>
    cases upgrade
    rfl
  | _ => rfl

/-- What comes out of the standard catalog agrees on stages. -/
theorem carriesOneStageList_of_standard {history : List Change}
    (stocked : ∀ item ∈ broughtBy history, ∃ id, standard o unlocks id = item) :
    carriesOneStageList history = true := by
  refine List.all_eq_true.mpr fun first brought => List.all_eq_true.mpr fun second more => ?_
  obtain ⟨one, given⟩ := stocked first brought
  obtain ⟨two, given'⟩ := stocked second more
  cases first with
  | simple name granted => rfl
  | progressive name chain =>
    cases second with
    | simple name granted => rfl
    | progressive other chain' =>
      have same := (standard_progressive given).trans (standard_progressive given').symm
      cases same
      simp [Item.agreesWith]

end Catalog

/-- Where the locations of rooms are alone, a key resolves to a location that has it, or that has
    the key of its room. -/
theorem Atlas.Coherent.position?_eq_some_iff_of_alone {a : Atlas} (coherent : a.Coherent)
    (alone : a.RoomsAlone) {i : Nat} {l : Location} (there : a.locations[i]? = some l) (key : Key) :
    a.position? key = some i ↔ key = l.key ∨ key.toRoom = l.key := by
  have known : l.key ∈ a.keys := List.mem_map_of_mem (List.mem_of_getElem? there)
  rw [coherent.position?_eq_some_iff there]
  constructor
  · exact Or.imp_right And.right
  · rintro (own | room)
    · exact .inl own
    · by_cases taken : key ∈ a.keys
      · exact .inl ((alone key taken (room ▸ known)).symm.trans room)
      · exact .inr ⟨taken, room⟩

namespace Placement

/-- What a placement has for the slot with a key: the value of the last of its keys that is the
    key of the slot, or lies in the room that the slot stands for. -/
def valueAt (p : Placement) (slot : Key) : Option (Option ItemId) :=
  (p.entries.entries.reverse.find? fun entry => entry.1 = slot ∨ entry.1.toRoom = slot).map (·.2)

/-- The location with what a placement has for it. -/
def fill (p : Placement) (catalog : Catalog) (l : Location) : Location :=
  l.rewritten catalog (p.valueAt l.key)

/-- Where the locations of rooms are alone, what a placement writes to a location depends on the
    key of the location and on nothing else. -/
theorem locations_replay_changes {a : Atlas} (coherent : a.Coherent) (alone : a.RoomsAlone)
    (p : Placement) (catalog : Catalog) :
    (a.replay (p.changes catalog)).locations = a.locations.map (p.fill catalog) := by
  apply List.ext_getElem?
  intro i
  rw [changes, getElem?_replay_place, List.getElem?_map]
  cases there : a.locations[i]? with
  | none => rfl
  | some l =>
    have written : writtenTo a p.entries.entries i = p.valueAt l.key := by
      simp only [writtenTo, valueAt, coherent.position?_eq_some_iff_of_alone alone there]
    rw [Option.map_some, Option.map_some, fill, written]

end Placement

namespace World

variable {catalog : Catalog} {unlocks : Unlocks} {o : Options}

/-- Every item of the world that is built comes out of the catalog. -/
theorem exists_id_of_mem_locations {l : Location} (member : l ∈ locations catalog o) {item : Item}
    (holds : l.item = some item) : ∃ id, catalog id = item := by
  rcases mem_locations.mp member with ⟨area, _, slot, _, rfl⟩ | ⟨_, rfl⟩
  · obtain ⟨id, _, given⟩ := Option.map_eq_some_iff.mp holds
    exact ⟨id, given⟩
  · exact ⟨_, Option.some.inj holds⟩

/-- Adding locations that are all new is a history. -/
theorem eq_replay_of_foldlM_add {ls : List Location} {a b : Atlas}
    (built : ls.foldlM Atlas.add a = .ok b) : b = a.replay (ls.map .add) := by
  induction ls generalizing a with
  | nil => exact (Except.ok.inj built).symm
  | cons l rest ih =>
    rw [List.foldlM_cons] at built
    cases added : a.add l with
    | error fault =>
      rw [added] at built
      cases built
    | ok c =>
      rw [added] at built
      have after : a.after (.add l) = c := by simp [Atlas.after, added, Except.toOption]
      rw [List.map_cons, Atlas.replay_cons, after]
      exact ih built

/-- A world that has been built is coherent. -/
theorem coherent_of_build {w : Atlas} (built : build catalog unlocks o = .ok w) : w.Coherent :=
  eq_replay_of_foldlM_add built ▸ Atlas.coherent_ofHistory unlocks o _

/-- The world of some options with a placement applied to it. -/
def filled (unlocks : Unlocks) (o : Options) (p : Placement) : Except Fault Atlas := do
  let w ← build (.standard o unlocks) unlocks o
  p.apply (.standard o unlocks) w

/-- The changes that make the world of some options and apply a placement to it. -/
def changes (unlocks : Unlocks) (o : Options) (p : Placement) : List Change :=
  (locations (.standard o unlocks) o).map .add ++ p.changes (.standard o unlocks)

/-- Whatever goes into a filled world comes out of the catalog. -/
theorem exists_id_of_mem_broughtBy_changes {p : Placement} {item : Item}
    (brought : item ∈ broughtBy (changes unlocks o p)) :
    ∃ id, Catalog.standard o unlocks id = item := by
  obtain ⟨change, member, brings⟩ := List.mem_filterMap.mp brought
  rcases List.mem_append.mp member with added | placed
  · obtain ⟨l, listed, rfl⟩ := List.mem_map.mp added
    exact exists_id_of_mem_locations listed brings
  · obtain ⟨entry, _, rfl⟩ := List.mem_map.mp placed
    obtain ⟨id, _, given⟩ := Option.map_eq_some_iff.mp brings
    exact ⟨id, given⟩

variable {p : Placement} {m : Atlas}

/-- Where a placement is applied to a built world, there is the world, and the placement is
    applied to its end. -/
theorem exists_build_of_filled (applied : filled unlocks o p = .ok m) :
    ∃ w, build (.standard o unlocks) unlocks o = .ok w ∧
      m = w.replay (p.changes (.standard o unlocks)) := by
  rw [filled] at applied
  cases built : build (.standard o unlocks) unlocks o with
  | error fault =>
    rw [built] at applied
    cases applied
  | ok w =>
    rw [built] at applied
    exact ⟨w, rfl, Placement.eq_replay_of_apply applied⟩

/-- A placement resolves in a built world when each of its keys is the key of a slot, or lies in
    a room that is. -/
theorem unresolved?_eq_none_iff {w : Atlas} (coherent : w.Coherent) (slots : w.keys = keys o) :
    p.unresolved? w = none ↔ ∀ key ∈ p.entries.keys, key ∈ keys o ∨ key.toRoom ∈ keys o := by
  rw [Placement.unresolved?, List.find?_eq_none]
  refine forall₂_congr fun key _ => ?_
  rw [← slots, ← coherent.isSome_position?_iff, ← coherent.isSome_find?]
  cases w.find? key <;> simp

/-- A placement whose keys resolve fills the world. -/
theorem exists_filled (unlocks : Unlocks) (o : Options) (p : Placement)
    (known : ∀ key ∈ p.entries.keys, key ∈ keys o ∨ key.toRoom ∈ keys o) :
    ∃ m, filled unlocks o p = .ok m := by
  obtain ⟨w, built, slots⟩ := exists_build (.standard o unlocks) unlocks o
  have resolved := (unresolved?_eq_none_iff (coherent_of_build built) slots).mpr known
  refine ⟨w.replay (p.changes (.standard o unlocks)), ?_⟩
  rw [filled, built]
  exact Placement.apply_of_resolved resolved _

/-- Where a placement is applied to a built world, its keys resolve, and each location of the
    world takes what the placement has for it. -/
theorem known_and_locations_of_filled (applied : filled unlocks o p = .ok m) :
    (∀ key ∈ p.entries.keys, key ∈ keys o ∨ key.toRoom ∈ keys o) ∧
      m.locations = (locations (.standard o unlocks) o).map (p.fill (.standard o unlocks)) := by
  obtain ⟨w, built, all⟩ := exists_build_locations (.standard o unlocks) unlocks o
  have slots : w.keys = keys o := by rw [Atlas.keys, all, keys_locations]
  have coherent := coherent_of_build built
  rw [filled, built] at applied
  have resolved : p.unresolved? w = none := Placement.resolved_of_apply applied
  refine ⟨(unresolved?_eq_none_iff coherent slots).mp resolved, ?_⟩
  rw [Placement.eq_replay_of_apply applied, ← all]
  exact Placement.locations_replay_changes coherent (roomsAlone_of_keys slots) p _

/-- A filled world is the atlas of the changes that make it. -/
theorem eq_ofHistory_of_filled (applied : filled unlocks o p = .ok m) :
    m = Atlas.ofHistory unlocks o (changes unlocks o p) := by
  obtain ⟨w, built, rfl⟩ := exists_build_of_filled applied
  rw [Atlas.ofHistory, changes, Atlas.replay_append, ← eq_replay_of_foldlM_add built]

/-- A filled world is coherent. -/
theorem coherent_of_filled (applied : filled unlocks o p = .ok m) : m.Coherent :=
  eq_ofHistory_of_filled applied ▸ Atlas.coherent_ofHistory unlocks o _

/-- The copies in a filled world agree on their stages. -/
theorem uniform_of_filled (applied : filled unlocks o p = .ok m) : m.Uniform :=
  eq_ofHistory_of_filled applied ▸ Atlas.uniform_ofHistory unlocks o
    (Catalog.carriesOneStageList_of_standard fun _ => exists_id_of_mem_broughtBy_changes)

/-- The identity of an item that lies in a filled world stands for the item. -/
theorem standard_id_of_filled (applied : filled unlocks o p = .ok m) {l : Location}
    (member : l ∈ m.locations) {item : Item} (holds : l.item = some item) :
    Catalog.standard o unlocks item.id = item := by
  have made : m.MadeOf (broughtBy (changes unlocks o p)) :=
    eq_ofHistory_of_filled applied ▸ Atlas.madeOf_ofHistory unlocks o _
  obtain ⟨id, rfl⟩ := exists_id_of_mem_broughtBy_changes (made.held l member item holds)
  exact Catalog.standard_id o unlocks id

end World

end ItemLogic
