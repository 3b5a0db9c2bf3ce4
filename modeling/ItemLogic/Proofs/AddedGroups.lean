import ItemLogic.Proofs.Alike
import ItemLogic.Proofs.FilledWorld
import ItemLogic.Proofs.GasRule
import Mathlib.Data.List.Perm.Subperm

/-!
# Groups that are added change no answer

Four options only add slots to the world: the gyre, the terminals, the fight with Cantoran and
the memories. A placement made for a world without them applies to the world with them, and what
exploration and the check of the placement say of it is the same in both.

The new slots could spoil that in three ways. They could take the keys of the placement: a key
that names no slot stands for the room, and would be caught by a new slot that has it. They could
bring something along that exploration looks at. Or they could shift the gates. None of this
happens. No slot lies in a room that is a slot as a whole, so every key names in the larger world
what it names in the smaller one. What lies in the new slots grants nothing. And the gates of the
regions do not ask which groups are there.
-/

namespace ItemLogic

/-- Where marks tell the members of a list apart, a part of the list is what remains when the
    members with other marks are left out. -/
theorem filter_mark_of_sublist {α β : Type} [DecidableEq β] (mark : α → β) {part whole : List α}
    (within : part.Sublist whole) (distinct : (whole.map mark).Nodup) :
    whole.filter (fun a => mark a ∈ part.map mark) = part := by
  have inside : part.Sublist (whole.filter fun a => mark a ∈ part.map mark) := by
    have kept : part.filter (fun a => mark a ∈ part.map mark) = part :=
      List.filter_eq_self.mpr fun a member => decide_eq_true (List.mem_map_of_mem member)
    have filtered := within.filter fun a => mark a ∈ part.map mark
    rwa [kept] at filtered
  have marks : (whole.filter fun a => mark a ∈ part.map mark).map mark ⊆ part.map mark := by
    intro b remaining
    obtain ⟨a, kept, rfl⟩ := List.mem_map.mp remaining
    exact of_decide_eq_true (List.mem_filter.mp kept).2
  have fewer := (List.subperm_of_subset (distinct.sublist (List.filter_sublist.map mark))
    marks).length_le
  rw [List.length_map, List.length_map] at fewer
  exact (inside.eq_of_length_le fewer).symm

/-- Whether a switch does nothing but add slots. -/
def Toggle.addsSlots : Toggle → Bool
  | gyreArchives | downloadableItems | cantoran | loreChecks => true
  | _ => false

/-- The second options differ from the first in calling for more groups, if in anything. -/
structure Options.WidenTo (o o' : Options) : Prop extends o.GroupsWithin o' where
  inverted : o.inverted = o'.inverted
  startWithTalaria : o.startWithTalaria = o'.startWithTalaria
  requireEyeOrbRing : o.requireEyeOrbRing = o'.requireEyeOrbRing
  gasMaw : o.gasMaw = o'.gasMaw
  progressiveKeycards : o.progressiveKeycards = o'.progressiveKeycards

namespace Options

/-- Options widen to themselves. -/
theorem WidenTo.refl (o : Options) : o.WidenTo o := ⟨⟨id, id, id, id⟩, rfl, rfl, rfl, rfl, rfl⟩

/-- One more switch that adds slots makes wide options wider. -/
theorem WidenTo.set {o o' : Options} (wider : o.WidenTo o') {toggle : Toggle}
    (adds : toggle.addsSlots = true) : o.WidenTo (o'.set toggle true) := by
  cases toggle with
  | gyreArchives => exact { wider with gyreArchives := fun _ => rfl }
  | downloadableItems => exact { wider with downloadableItems := fun _ => rfl }
  | cantoran => exact { wider with cantoran := fun _ => rfl }
  | loreChecks => exact { wider with loreChecks := fun _ => rfl }
  | _ => cases adds

/-- Turning on switches that add slots widens the options. -/
theorem widenTo_turnOn (o : Options) {toggles : List Toggle}
    (adds : ∀ toggle ∈ toggles, toggle.addsSlots = true) : o.WidenTo (o.turnOn toggles) := by
  have widened {o' : Options} (wider : o.WidenTo o') : o.WidenTo (o'.turnOn toggles) := by
    induction toggles generalizing o' with
    | nil => exact wider
    | cons toggle rest ih =>
      obtain ⟨first, others⟩ := List.forall_mem_cons.mp adds
      exact ih others (wider.set first)
  exact widened (.refl o)

end Options

namespace World

/-- The slots that options may add. -/
def optionalAreas : List Area := gyre ++ terminals ++ cantoran ++ lore

/-- An area that some options call for is called for by all, or is optional. -/
theorem mem_areas_or_optional (o : Options) {o' : Options} {area : Area} (known : area ∈ areas o') :
    area ∈ areas o ∨ area ∈ optionalAreas := by
  have only {called : Bool} {group : List Area} (listed : area ∈ if called then group else []) :
      area ∈ group := by
    cases called with
    | true => exact listed
    | false => cases listed
  simp only [areas, optionalAreas, List.mem_append] at known ⊢
  obtain ((((always | listed) | listed) | listed) | listed) := known
  · exact .inl (.inl (.inl (.inl (.inl always))))
  · exact .inr (.inl (.inl (.inl (only listed))))
  · exact .inr (.inl (.inl (.inr (only listed))))
  · exact .inr (.inl (.inr (only listed)))
  · exact .inr (.inr (only listed))

/-- Nothing lies in an optional slot, or an orb that grants nothing. -/
theorem optional_slot_does_not_matter (regions : Regions) (o : Options) (unlocks : Unlocks) :
    ∀ area ∈ optionalAreas, ∀ slot ∈ area.slots,
      (slot.location area.name regions (.standard o unlocks)).matters = false := by
  have poor : ∀ area ∈ optionalAreas, ∀ slot ∈ area.slots,
      slot.item = none ∨ slot.item = some (.orb .barrier .melee) := by decide +kernel
  have worthless : (Catalog.standard o unlocks (.orb .barrier .melee)).matters = false := by
    change (Item.simple (.orb .barrier .melee) ∅).matters = false
    decide
  intro area known slot listed
  rcases poor area known slot listed with nothing | orb
  · rw [Location.matters, Slot.location, nothing]
    rfl
  · rw [Location.matters, Slot.location, orb, Option.map_some, Option.any_some, worthless]

variable {o o' : Options} {unlocks : Unlocks} {p : Placement} {m m' : Atlas}

/-- A placement whose keys resolve in one world leaves alone what is only in another: a key that
    named a slot there would be the key of a slot that is in both, or lie in the room of one. -/
theorem fill_of_added (catalog : Catalog)
    (known : ∀ key ∈ p.entries.keys, key ∈ keys o ∨ key.toRoom ∈ keys o) {l : Location}
    (there : l.key ∈ keys o') (added : l.key ∉ keys o) : p.fill catalog l = l := by
  have unnamed : p.valueAt l.key = none := by
    rw [Placement.valueAt, Option.map_eq_none_iff, List.find?_eq_none]
    intro entry listed names
    have resolved := known entry.1 (List.mem_map_of_mem (List.mem_reverse.mp listed))
    rcases of_decide_eq_true names with own | room
    · rw [own] at resolved
      have around : l.key.toRoom ∈ keys o := resolved.resolve_left added
      have alone : l.key.toRoom = l.key := toRoom_eq_of_mem_keys there around
      exact added (alone ▸ around)
    · rw [room] at resolved
      have inside : entry.1 ∈ keys o := resolved.resolve_right added
      have alone : entry.1.toRoom = entry.1 := toRoom_eq_of_mem_keys inside (room ▸ there)
      exact added (room ▸ alone.symm ▸ inside)
  rw [Placement.fill, unnamed, Location.rewritten]

/-- The goal of a filled world is the gate of the nightmare. -/
theorem goal_of_filled (applied : filled unlocks o p = .ok m) :
    m.goal = (Regions.ofOptions o).nightmare := by
  rw [eq_ofHistory_of_filled applied]
  refine @Atlas.replay_induction (fun b => b.goal = (Regions.ofOptions o).nightmare) _ _ rfl ?_
  intro b change member same
  rw [changes] at member
  rcases List.mem_append.mp member with added | placed
  · obtain ⟨l, _, rfl⟩ := List.mem_map.mp added
    rw [Atlas.after, Atlas.add]
    split <;> exact same
  · obtain ⟨entry, _, rfl⟩ := List.mem_map.mp placed
    rw [← same]
    exact (congrArg Atlas.goal (b.emptied_after_place _ _) :)

section Wider

variable (wider : o.WidenTo o')

include wider

/-- The gates of the regions do not depend on the groups. -/
theorem ofOptions_of_wider : Regions.ofOptions o = Regions.ofOptions o' := by
  obtain ⟨_, era, _, ring, gas, _⟩ := wider
  cases o
  cases o'
  cases era
  cases ring
  cases gas
  rfl

/-- Nor does the catalog. -/
theorem standard_of_wider (unlocks : Unlocks) :
    Catalog.standard o unlocks = Catalog.standard o' unlocks := by
  funext id
  cases id with
  | relic relic => rw [Catalog.standard, Catalog.standard, wider.progressiveKeycards]
  | upgrade upgrade =>
    cases upgrade
    rfl
  | _ => rfl

/-- Nor do the unlocks that are drawn from a seed. -/
theorem ofSeed_of_wider (seed : Seed) : Unlocks.ofSeed seed o = Unlocks.ofSeed seed o' := by
  rw [Unlocks.ofSeed, Unlocks.ofSeed, wider.inverted]

/-- The locations of the smaller world are among those of the larger, in the same order. -/
theorem locations_sublist_of_wider (catalog : Catalog) :
    (locations catalog o).Sublist (locations catalog o') := by
  rw [locations, locations, ofOptions_of_wider wider, wider.startWithTalaria]
  exact ((areas_sublist_of_groups wider.toGroupsWithin).flatMap _).append (List.Sublist.refl _)

/-- The keys of the smaller world are among those of the larger, in the same order. -/
theorem keys_sublist_of_wider : (keys o).Sublist (keys o') := by
  rw [keys, keys, wider.startWithTalaria]
  exact ((areas_sublist_of_groups wider.toGroupsWithin).flatMap _).append (List.Sublist.refl _)

/-- The smaller world is what the larger has at its keys. -/
theorem filter_locations_of_wider (catalog : Catalog) :
    (locations catalog o').filter (·.key ∈ keys o) = locations catalog o := by
  have distinct : ((locations catalog o').map (·.key)).Nodup := by
    rw [keys_locations]
    exact nodup_keys o'
  rw [← keys_locations catalog o]
  exact filter_mark_of_sublist (·.key) (locations_sublist_of_wider wider catalog) distinct

/-- A location that is only in the larger world does not matter. -/
theorem matters_of_added {l : Location} (member : l ∈ locations (.standard o' unlocks) o')
    (added : l.key ∉ keys o) : l.matters = false := by
  rw [keys, List.mem_append, not_or] at added
  rcases mem_locations.mp member with ⟨area, known, slot, given, rfl⟩ | ⟨start, rfl⟩
  · rcases mem_areas_or_optional o known with always | optional
    · have here : slot.key ∈ (areas o).flatMap fun area => area.slots.map (·.key) :=
        List.mem_flatMap.mpr ⟨area, always, List.mem_map_of_mem given⟩
      exact absurd here added.1
    · exact optional_slot_does_not_matter _ o' unlocks area optional slot given
  · rw [wider.startWithTalaria, if_pos start] at added
    exact absurd (List.mem_singleton_self _) added.2

/-- A placement that fills the smaller world fills the larger. -/
theorem exists_filled_of_wider (applied : filled unlocks o p = .ok m) :
    ∃ m', filled unlocks o' p = .ok m' := by
  have within := (keys_sublist_of_wider wider).subset
  refine exists_filled unlocks o' p fun key listed => ?_
  exact ((known_and_locations_of_filled applied).1 key listed).imp (within ·) (within ·)

/-- Whatever is in the smaller world is in the larger, and the same locations matter. -/
theorem locations_of_wider (applied : filled unlocks o p = .ok m)
    (applied' : filled unlocks o' p = .ok m') :
    m.locations.Sublist m'.locations ∧
      m.locations.filter (·.matters) = m'.locations.filter (·.matters) := by
  obtain ⟨known, smaller⟩ := known_and_locations_of_filled applied
  obtain ⟨_, larger⟩ := known_and_locations_of_filled applied'
  rw [standard_of_wider wider] at smaller
  rw [smaller, larger]
  refine ⟨(locations_sublist_of_wider wider _).map _, ?_⟩
  rw [List.filter_map, List.filter_map, ← filter_locations_of_wider wider, List.filter_filter]
  refine congrArg (List.map _) (List.filter_congr fun l member => ?_)
  by_cases old : l.key ∈ keys o
  · simp [old]
  · have there : l.key ∈ keys o' := keys_locations _ o' ▸ List.mem_map_of_mem member
    have left := fill_of_added (.standard o' unlocks) known there old
    simp [old, left, matters_of_added wider member old]

/-- The larger world, filled by the same placement, is explored and judged like the smaller. -/
theorem playsLike_of_wider (applied : filled unlocks o p = .ok m)
    (applied' : filled unlocks o' p = .ok m') : m.PlaysLike m' := by
  obtain ⟨within, matters⟩ := locations_of_wider wider applied applied'
  have game : m.options = o ∧ m.unlocks = unlocks :=
    eq_ofHistory_of_filled applied ▸ Atlas.game_ofHistory unlocks o _
  have game' : m'.options = o' ∧ m'.unlocks = unlocks :=
    eq_ofHistory_of_filled applied' ▸ Atlas.game_ofHistory unlocks o' _
  refine ⟨?_, ?_, ?_, ?_, matters, ?_⟩
  · rw [goal_of_filled applied, goal_of_filled applied', ofOptions_of_wider wider]
  · rw [game.2, game'.2]
  · rw [game.1, game'.1, wider.inverted]
  · rw [game.1, game'.1, wider.gasMaw]
  · intro l member id chain holds
    rw [Atlas.shared_eq_ofStages (coherent_of_filled applied) (uniform_of_filled applied) member
        holds, Atlas.shared_eq_ofStages (coherent_of_filled applied') (uniform_of_filled applied')
        (within.subset member) holds]

end Wider

/-- Turning on groups of slots adds locations to the world and leaves the others as they are, in
    their order. A placement that applies to the smaller world applies to the larger, and then
    every held set obtains the same, every closure is the same, and so are the waves and the
    verdict. -/
theorem added_groups_change_no_answer (seed : Seed) (o : Options) (toggles : List Toggle)
    (adds : ∀ toggle ∈ toggles, toggle.addsSlots = true) :
    let o' := o.turnOn toggles
    let unlocks := Unlocks.ofSeed seed o
    let unlocks' := Unlocks.ofSeed seed o'
    (∃ w w', build (.standard o unlocks) unlocks o = .ok w ∧
      build (.standard o' unlocks') unlocks' o' = .ok w' ∧ w.locations.Sublist w'.locations) ∧
    ∀ p m, filled unlocks o p = .ok m →
      ∃ m', filled unlocks' o' p = .ok m' ∧
        (∀ held, m'.obtained held = m.obtained held) ∧
        (∀ initial, m'.closure initial = m.closure initial) ∧
        m'.waves = m.waves ∧ m'.verdict = m.verdict := by
  intro o' unlocks unlocks'
  have wider : o.WidenTo o' := o.widenTo_turnOn adds
  have drawn : unlocks = unlocks' := ofSeed_of_wider wider seed
  constructor
  · obtain ⟨w, built, all⟩ := exists_build_locations (.standard o unlocks) unlocks o
    obtain ⟨w', built', all'⟩ := exists_build_locations (.standard o' unlocks') unlocks' o'
    refine ⟨w, w', built, built', ?_⟩
    rw [all, all', drawn, standard_of_wider wider]
    exact locations_sublist_of_wider wider _
  · intro p m applied
    rw [drawn] at applied
    obtain ⟨m', applied'⟩ := exists_filled_of_wider wider applied
    have alike := playsLike_of_wider wider applied applied'
    exact ⟨m', applied', congrFun alike.obtained.symm, congrFun alike.closure.symm,
      alike.waves.symm, alike.verdict.symm⟩

/-- A keycard by the lake and another in the room of the forest, which a spot in it names. -/
def twoCards : Placement :=
  ⟨.ofList [(.spot 1 1 1528 144, some (.relic .scienceKeycardA)),
    (.spot 3 0 9 9, some (.relic .scienceKeycardB))]⟩

/-- With Cantoran and the memories that placement is judged as it is without them. -/
theorem twoCards_judged_alike :
    let o : Options := { progressiveKeycards := true }
    let o' := o.turnOn [.cantoran, .loreChecks]
    (∀ toggle ∈ [Toggle.cantoran, Toggle.loreChecks], toggle.addsSlots = true) ∧
      ∃ m m', filled (.ofSeed ⟨0⟩ o) o twoCards = .ok m ∧
        filled (.ofSeed ⟨0⟩ o') o' twoCards = .ok m' ∧ m'.waves = m.waves ∧
        m'.verdict = m.verdict := by
  intro o o'
  have adds : ∀ toggle ∈ [Toggle.cantoran, Toggle.loreChecks], toggle.addsSlots = true := by
    decide
  have known : ∀ key ∈ twoCards.entries.keys, key ∈ keys o ∨ key.toRoom ∈ keys o := by
    decide +kernel
  obtain ⟨m, applied⟩ := exists_filled (.ofSeed ⟨0⟩ o) o twoCards known
  obtain ⟨_, applies⟩ := added_groups_change_no_answer ⟨0⟩ o [.cantoran, .loreChecks] adds
  obtain ⟨m', applied', _, _, waves, verdict⟩ := applies twoCards m applied
  exact ⟨adds, m, m', applied, applied', waves, verdict⟩

end World

end ItemLogic
