import ItemLogic.Proofs.Completion
import ItemLogic.Proofs.Provenance

/-!
# What exploration looks at

Most locations hold nothing, or something that grants nothing. Exploration passes over them, and
so do the checks that go before a verdict: a location matters only for an item that can grant
something, for a copy of an item found in stages, or for the gas mask. Two atlases in which the
same locations matter, in the same order, and in which the copies lead up the same chains, are
explored alike and judged alike. Everything else in them may differ.
-/

namespace ItemLogic

/-- Whether exploration, or one of the checks before a verdict, looks at the item. -/
def Item.matters (item : Item) : Bool :=
  item.isProgression || item.isProgressive || item.id = .relic .airMask

/-- Whether the location holds an item that matters. -/
def Location.matters (l : Location) : Bool := l.item.any Item.matters

namespace Location

variable {l : Location}

/-- A location with progression matters. -/
theorem matters_of_holdsProgression (holds : l.holdsProgression = true) : l.matters = true := by
  obtain ⟨item, present, progression⟩ := (Option.any_eq_true _ _).mp holds
  simp [matters, Item.matters, present, progression]

/-- A location with a copy of an item found in stages matters, even where its stages are empty. -/
theorem matters_of_progressive {id : ItemId} {chain : Chain}
    (holds : l.item = some (.progressive id chain)) : l.matters = true := by
  simp [matters, Item.matters, holds, Item.isProgressive]

/-- The location of the gas mask matters, even where the mask grants nothing. -/
theorem matters_of_gasMask (holds : (l.item.any fun item => item.id = .relic .airMask) = true) :
    l.matters = true := by
  obtain ⟨item, present, mask⟩ := (Option.any_eq_true _ _).mp holds
  simp [matters, Item.matters, present, of_decide_eq_true mask]

end Location

namespace Atlas

/-- Locations that do not matter hold no copies. -/
theorem copies_filter_matters (locations : List Location) :
    copies (locations.filter (·.matters)) = copies locations := by
  funext id
  rw [copies, copies, List.countP_filter]
  refine List.countP_congr fun l _ => ?_
  rw [Bool.and_eq_true]
  refine and_iff_left_of_imp fun counted => ?_
  obtain ⟨chain, holds⟩ := exists_copy_of_counted counted
  exact Location.matters_of_progressive holds

/-- Locations that do not matter grant nothing. -/
theorem granted_filter_matters (a : Atlas) (locations : List Location) :
    a.granted (locations.filter (·.matters)) = a.granted locations := by
  have grants : a.grantAmong (locations.filter (·.matters)) = a.grantAmong locations := by
    funext item
    cases item with
    | simple id unlocks => rfl
    | progressive id chain => rw [grantAmong, grantAmong, copies_filter_matters]
  refine CapSet.ext_members fun c => ?_
  rw [mem_granted, mem_granted, grants]
  constructor
  · rintro ⟨l, member, granted⟩
    exact ⟨l, List.mem_of_mem_filter member, granted⟩
  · rintro ⟨l, member, item, holds, granted⟩
    refine ⟨l, List.mem_filter.mpr ⟨member, ?_⟩, item, holds, granted⟩
    cases item with
    | simple id unlocks =>
      refine Location.matters_of_holdsProgression ?_
      have progression := isProgression_of_mem_grantAmong (by simp) granted
      simpa [Location.holdsProgression, holds] using progression
    | progressive id chain => exact Location.matters_of_progressive holds

/-- The first clash is among the locations that matter. -/
theorem clashAmong_filter_matters (seen : List (ItemId × Key)) (locations : List Location) :
    clashAmong seen (locations.filter (·.matters)) = clashAmong seen locations := by
  induction locations generalizing seen with
  | nil => rfl
  | cons l rest ih =>
    cases important : l.matters with
    | true =>
      rw [List.filter_cons_of_pos important, clashAmong, clashAmong]
      simp only [ih]
    | false =>
      rw [List.filter_cons_of_neg (by simp [important]), ih, clashAmong_cons_of_no_copy]
      rintro id ⟨chain, holds⟩
      rw [Location.matters_of_progressive holds] at important
      cases important

/-- Two atlases with one goal in which the same locations matter, in the same order, and the
    same chains stand behind the copies. -/
structure PlaysLike (a b : Atlas) : Prop where
  goal : a.goal = b.goal
  unlocks : a.unlocks = b.unlocks
  inverted : a.options.inverted = b.options.inverted
  gasMaw : a.options.gasMaw = b.options.gasMaw
  matters : a.locations.filter (·.matters) = b.locations.filter (·.matters)
  shared : ∀ l ∈ a.locations, ∀ id chain, l.item = some (.progressive id chain) →
    (a.chain? id).getD chain = (b.chain? id).getD chain

namespace PlaysLike

variable {a b : Atlas} (alike : a.PlaysLike b)

include alike

/-- Locations of both grant the same in both. -/
theorem granted {locations : List Location} (within : ∀ l ∈ locations, l ∈ a.locations) :
    a.granted locations = b.granted locations :=
  granted_of_shared fun l member => alike.shared l (within l member)

/-- The same locations that matter are reachable. -/
theorem reachable_matters (held : CapSet) :
    (a.reachable held).filter (·.matters) = (b.reachable held).filter (·.matters) := by
  rw [Atlas.reachable, Atlas.reachable, List.filter_comm, alike.matters, List.filter_comm]

/-- The same is obtained from a held set. -/
theorem obtained : a.obtained = b.obtained := by
  funext held
  rw [Atlas.obtained, Atlas.obtained, ← granted_filter_matters a, ← granted_filter_matters b,
    ← alike.reachable_matters held]
  exact alike.granted fun l member => List.mem_of_mem_filter (List.mem_of_mem_filter member)

/-- The same progression is in reach of a held set, in the same order. -/
theorem reachableProgression : a.reachableProgression = b.reachableProgression := by
  have among (c : Atlas) (held : CapSet) : c.reachableProgression held =
      ((c.reachable held).filter (·.matters)).filter (·.holdsProgression) := by
    rw [Atlas.reachableProgression, List.filter_filter]
    refine List.filter_congr fun l _ => ?_
    cases holds : l.holdsProgression with
    | false => rfl
    | true => exact (Location.matters_of_holdsProgression holds).symm
  funext held
  rw [among, among, alike.reachable_matters]

/-- The same closures are reached. -/
theorem closure : a.closure = b.closure := closure_of_obtained alike.obtained

/-- Progression comes in the same waves. -/
theorem waves : a.waves = b.waves := waves_of_obtained alike.obtained alike.reachableProgression

/-- The same location is the first with the gas mask. -/
theorem gasMask? : a.gasMask? = b.gasMask? := by
  have among (c : Atlas) : c.gasMask? = (c.locations.filter (·.matters)).find?
      fun l => l.item.any fun item => item.id = .relic .airMask := by
    rw [Atlas.gasMask?, List.find?_filter]
    congr 1
    funext l
    cases holds : l.item.any fun item => item.id = .relic .airMask with
    | false => simp
    | true => simp [Location.matters_of_gasMask holds]
  rw [among, among, alike.matters]

/-- The same two copies are the first to share a room, if any do. -/
theorem clash? : a.clash? = b.clash? := by
  rw [Atlas.clash?, Atlas.clash?, ← clashAmong_filter_matters, alike.matters,
    clashAmong_filter_matters]

/-- The same verdict is given. -/
theorem verdict : a.verdict = b.verdict := by
  have inReach := inReachOfMaw_congr alike.unlocks alike.inverted
  refine verdict_of_obtained alike.obtained alike.goal alike.gasMaw ?_ ?_
  · rw [gasMaskInReach, gasMaskInReach, alike.gasMask?, inReach]
  · rw [alike.clash?]

end PlaysLike

end Atlas

end ItemLogic
