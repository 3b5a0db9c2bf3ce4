import ItemLogic.Exploration
import ItemLogic.Gate.Lemmas
import ItemLogic.Proofs.ChainWalk
import Mathlib.Data.List.Basic

/-!
# What locations grant together

A capability is granted by a list of locations when some item in it grants the
capability, a copy of an item found in stages on the strength of all copies in the
list. More locations never grant less: every item is still there, and the copies have
become no fewer. Since gates also open to more and never to less, the step of an
exploration keeps containment.

Exploration reads gates, items and shared chains. Which locations are picked up does
not matter to it, so an atlas and its blank copy are explored alike.
-/

namespace ItemLogic

/-- The location as nobody has been there. -/
def Location.blank (l : Location) : Location := { l with pickedUp := false }

namespace Atlas

/-- The atlas as nobody has been anywhere. -/
def blank (a : Atlas) : Atlas := { a with locations := a.locations.map Location.blank }

/-- A list of locations grants what some item in it grants. -/
theorem mem_granted {a : Atlas} {locations : List Location} {c : Capability} :
    c ∈ a.granted locations ↔
      ∃ l ∈ locations, ∃ item, l.item = some item ∧ c ∈ a.grantAmong locations item := by
  simp only [granted, CapSet.mem_unionAll, List.mem_map, List.mem_filterMap]
  constructor
  · rintro ⟨_, ⟨item, ⟨l, member, holds⟩, rfl⟩, grants⟩
    exact ⟨l, member, item, holds, grants⟩
  · rintro ⟨l, member, item, holds, grants⟩
    exact ⟨_, ⟨item, ⟨l, member, holds⟩, rfl⟩, grants⟩

/-- No locations grant nothing. -/
@[simp] theorem granted_nil (a : Atlas) : a.granted [] = ∅ := rfl

/-- Where an item has a shared chain, its copies grant the same whatever chain they carry. -/
theorem grantAmong_of_registered {a : Atlas} {id : ItemId} (registered : (a.chain? id).isSome)
    (locations : List Location) (chain other : Chain) :
    a.grantAmong locations (.progressive id chain) =
      a.grantAmong locations (.progressive id other) := by
  obtain ⟨shared, found⟩ := Option.isSome_iff_exists.mp registered
  rw [grantAmong, grantAmong, found, Option.getD_some, Option.getD_some]

/-- An item grants at least as much where there are at least as many copies. -/
theorem grantAmong_mono (a : Atlas) {fewer more : List Location} (item : Item)
    (counted : ∀ id, copies fewer id ≤ copies more id) :
    a.grantAmong fewer item ⊆ a.grantAmong more item := by
  cases item with
  | simple id unlocks => exact CapSet.subset_refl unlocks
  | progressive id chain => exact Chain.unlockedBy_mono _ (counted id)

/-- More locations never grant less. -/
theorem granted_mono (a : Atlas) {fewer more : List Location} (within : fewer.Sublist more) :
    a.granted fewer ⊆ a.granted more := by
  refine CapSet.subset_iff.mpr fun c granted => ?_
  obtain ⟨l, member, item, holds, grants⟩ := mem_granted.mp granted
  have counted (id : ItemId) : copies fewer id ≤ copies more id := within.countP_le
  exact mem_granted.mpr ⟨l, within.subset member, item, holds,
    CapSet.subset_iff.mp (a.grantAmong_mono item counted) c grants⟩

/-- The locations of a narrower selection grant no more. -/
theorem granted_filter_subset (a : Atlas) {locations : List Location}
    {narrow wide : Location → Bool}
    (within : ∀ l ∈ locations, narrow l = true → wide l = true) :
    a.granted (locations.filter narrow) ⊆ a.granted (locations.filter wide) := by
  have both : locations.filter narrow = locations.filter fun l => narrow l && wide l := by
    refine List.filter_congr fun l member => ?_
    cases selected : narrow l with
    | false => rfl
    | true => exact (within l member selected).symm
  rw [both]
  exact a.granted_mono (List.monotone_filter_right locations fun l => by simp)

/-- Only the items of a list count. -/
theorem granted_map (a : Atlas) (change : Location → Location)
    (kept : ∀ l, (change l).item = l.item) (locations : List Location) :
    a.granted (locations.map change) = a.granted locations := by
  have items : (locations.map change).filterMap (·.item) = locations.filterMap (·.item) := by
    rw [List.filterMap_map]
    congr 1
    funext l
    exact kept l
  have counted (id : ItemId) : copies (locations.map change) id = copies locations id := by
    simp [copies, List.countP_map, Function.comp_def, kept]
  have grants : a.grantAmong (locations.map change) = a.grantAmong locations := by
    funext item
    cases item with
    | simple id unlocks => rfl
    | progressive id chain => simp [grantAmong, counted]
  rw [granted, granted, items, grants]

/-- Atlases that grant the same for each item of a list grant the same for the list. -/
theorem granted_of_grantAmong {a b : Atlas} {locations : List Location}
    (same : ∀ l ∈ locations, ∀ item, l.item = some item →
      a.grantAmong locations item = b.grantAmong locations item) :
    a.granted locations = b.granted locations := by
  rw [granted, granted]
  refine congrArg CapSet.unionAll (List.map_congr_left fun item brought => ?_)
  obtain ⟨l, member, holds⟩ := List.mem_filterMap.mp brought
  exact same l member item holds

/-- Atlases in which the copies of a list share the same chains grant the same for the list. -/
theorem granted_of_shared {a b : Atlas} {locations : List Location}
    (shared : ∀ l ∈ locations, ∀ id chain, l.item = some (.progressive id chain) →
      (a.chain? id).getD chain = (b.chain? id).getD chain) :
    a.granted locations = b.granted locations := by
  refine granted_of_grantAmong fun l member item holds => ?_
  cases item with
  | simple id unlocks => rfl
  | progressive id chain => rw [grantAmong, grantAmong, shared l member id chain holds]

/-- What is reachable stays reachable with more in hand, in the same order. -/
theorem reachable_sublist (a : Atlas) {held more : CapSet} (contained : held ⊆ more) :
    (a.reachable held).Sublist (a.reachable more) :=
  List.monotone_filter_right a.locations fun _ => Gate.opens_mono contained

/-- More in hand never obtains less. -/
theorem obtained_mono (a : Atlas) {held more : CapSet} (contained : held ⊆ more) :
    a.obtained held ⊆ a.obtained more :=
  a.granted_mono (a.reachable_sublist contained)

/-- A step from more leads to no less. -/
theorem step_mono (a : Atlas) (initial : CapSet) {held more : CapSet} (contained : held ⊆ more) :
    a.step initial held ⊆ a.step initial more := by
  refine CapSet.union_subset_iff.mpr ⟨CapSet.subset_union_left _ _, ?_⟩
  exact CapSet.subset_trans (a.obtained_mono contained) (CapSet.subset_union_right _ _)

/-- The same locations of the blank copy are reachable. -/
theorem reachable_blank (a : Atlas) (held : CapSet) :
    a.blank.reachable held = (a.reachable held).map Location.blank := by
  rw [reachable, reachable, blank, List.filter_map]
  rfl

/-- The blank copy obtains the same. -/
theorem obtained_blank (a : Atlas) : a.blank.obtained = a.obtained := by
  funext held
  rw [obtained, reachable_blank, granted_map a.blank Location.blank fun _ => rfl]
  rfl

/-- Atlases that obtain the same have the same closures. -/
theorem closure_of_obtained {a b : Atlas} (same : a.obtained = b.obtained) :
    a.closure = b.closure := by
  have step : a.step = b.step := by
    funext initial held
    rw [Atlas.step, Atlas.step, same]
  funext initial
  rw [closure, closure, step]

/-- Atlases that obtain the same and reach the same progression have the same waves. -/
theorem waves_of_obtained {a b : Atlas} (obtained : a.obtained = b.obtained)
    (progression : a.reachableProgression = b.reachableProgression) : a.waves = b.waves := by
  have wave : a.wave = b.wave := by
    funext before held
    rw [Atlas.wave, Atlas.wave, progression]
  have along (before : Option CapSet) (ascent : List CapSet) :
      a.wavesAlong before ascent = b.wavesAlong before ascent := by
    induction ascent generalizing before with
    | nil => rfl
    | cons held rest ih => rw [wavesAlong, wavesAlong, wave, ih]
  rw [waves, waves, rounds, rounds, freshAscent, freshAscent, obtained, along]

end Atlas

end ItemLogic
