import ItemLogic.Proofs.Coherence
import ItemLogic.Proofs.Grants

/-!
# What picking up changes

Picking up marks one location and changes nothing else, so exploration, which never looks
at the marks, finds the same afterwards. In a coherent atlas a key that some location has
resolves to that location. Picking up a list of such keys therefore marks exactly the
locations whose keys are listed, in whatever order and however often they are.
-/

namespace ItemLogic

/-- The location after some keys have been picked up. -/
def Location.markedBy (order : List Key) (l : Location) : Location :=
  { l with pickedUp := l.pickedUp || order.contains l.key }

/-- With no keys picked up no mark is added. -/
theorem Location.markedBy_nil : Location.markedBy [] = id := by
  funext l
  simp [markedBy]

/-- Marks add up. -/
theorem Location.markedBy_cons (key : Key) (rest : List Key) (l : Location) :
    l.markedBy (key :: rest) = (l.markedBy [key]).markedBy rest := by
  simp [markedBy, Bool.or_assoc]

namespace Atlas

variable {a : Atlas} {order : List Key}

/-- Picking up changes nothing but who has been where. -/
theorem blank_after_pickUp (a : Atlas) (key : Key) : (a.after (.pickUp key)).blank = a.blank := by
  cases picked : a.pickUp? key with
  | none => simp [after, picked]
  | some b =>
    obtain ⟨i, _, rfl⟩ := Option.map_eq_some_iff.mp picked
    have same : (a.locations.modify i fun l => { l with pickedUp := true }).map Location.blank =
        a.locations.map Location.blank := by
      refine map_modify_of_kept Location.blank _ ?_ _ _
      intro l
      rfl
    simp only [after, picked, Option.getD_some, blank, same]

/-- Picking up any number of keys changes nothing but who has been where. -/
theorem blank_pickUpAll (a : Atlas) (order : List Key) : (a.pickUpAll order).blank = a.blank := by
  induction order generalizing a with
  | nil => rfl
  | cons key rest ih => rw [pickUpAll_cons, ih, blank_after_pickUp]

/-- Picking up moves no key. -/
theorem position?_after_pickUp (a : Atlas) (key : Key) :
    (a.after (.pickUp key)).position? = a.position? := by
  have index : (a.after (.pickUp key)).blank.index = a.blank.index :=
    congrArg Atlas.index (a.blank_after_pickUp key)
  change (a.after (.pickUp key)).index = a.index at index
  funext other
  rw [position?, position?, index]

/-- Picking up a key marks the location that it resolves to. -/
theorem getElem?_after_pickUp (a : Atlas) (key : Key) (i : Nat) :
    (a.after (.pickUp key)).locations[i]? = a.locations[i]?.map fun l =>
      { l with pickedUp := l.pickedUp || decide (a.position? key = some i) } := by
  cases resolved : a.position? key with
  | none => simp [after, pickUp?, resolved]
  | some j =>
    simp only [after, pickUp?, resolved, Option.map_some, Option.getD_some, List.getElem?_modify]
    by_cases here : j = i <;> simp [here]

/-- Picking up some keys, one after the other, marks the locations that they resolve to. -/
theorem getElem?_pickUpAll (a : Atlas) (order : List Key) (i : Nat) :
    (a.pickUpAll order).locations[i]? = a.locations[i]?.map fun l =>
      { l with pickedUp := l.pickedUp || order.any fun key => a.position? key = some i } := by
  induction order generalizing a with
  | nil => simp
  | cons key rest ih =>
    rw [pickUpAll_cons, ih, getElem?_after_pickUp, position?_after_pickUp, Option.map_map]
    refine congrArg (Option.map · a.locations[i]?) (funext fun l => ?_)
    simp [Bool.or_assoc]

/-- Picking up leaves alone what exploration obtains. -/
theorem obtained_pickUpAll (a : Atlas) (order : List Key) :
    (a.pickUpAll order).obtained = a.obtained := by
  rw [← obtained_blank, blank_pickUpAll, obtained_blank]

/-- A single pickup leaves alone what exploration obtains. -/
theorem obtained_after_pickUp (a : Atlas) (key : Key) :
    (a.after (.pickUp key)).obtained = a.obtained := a.obtained_pickUpAll [key]

/-- Picking up leaves alone what a list of locations grants. -/
theorem granted_pickUpAll (a : Atlas) (order : List Key) :
    (a.pickUpAll order).granted = a.granted := by
  have same : (a.pickUpAll order).blank.granted = a.blank.granted := by rw [blank_pickUpAll]
  exact same

/-- Picking up a key that some location has marks that location and no other. -/
theorem locations_after_pickUp (coherent : a.Coherent) {key : Key} (known : key ∈ a.keys) :
    (a.after (.pickUp key)).locations = a.locations.map (Location.markedBy [key]) := by
  apply List.ext_getElem?
  intro i
  rw [getElem?_after_pickUp, List.getElem?_map]
  cases there : a.locations[i]? with
  | none => rfl
  | some l =>
    have resolved : a.position? key = some i ↔ l.key = key := by
      rw [coherent.position?_eq_some_iff there, eq_comm]
      exact or_iff_left fun unknown => unknown.1 known
    simp [Location.markedBy, resolved]

/-- Picking up keys of locations marks exactly the locations with those keys. -/
theorem locations_pickUpAll (coherent : a.Coherent) (known : ∀ key ∈ order, key ∈ a.keys) :
    (a.pickUpAll order).locations = a.locations.map (Location.markedBy order) := by
  induction order generalizing a with
  | nil => simp [Location.markedBy_nil]
  | cons key rest ih =>
    have first := locations_after_pickUp coherent (known key List.mem_cons_self)
    have keys : (a.after (.pickUp key)).keys = a.keys := by
      rw [Atlas.keys, first, List.map_map]
      rfl
    have later : ∀ other ∈ rest, other ∈ (a.after (.pickUp key)).keys := fun other member =>
      keys ▸ known other (List.mem_cons_of_mem key member)
    rw [pickUpAll_cons, ih (coherent_after coherent _) later, first, List.map_map]
    refine List.map_congr_left fun l _ => ?_
    rw [Function.comp_apply, ← Location.markedBy_cons]

/-- Once the keys of some locations have been picked up, in any order, and nothing was
    picked up before, what the player has is what those locations grant together. -/
theorem available_pickUpAll (coherent : a.Coherent) (fresh : ∀ l ∈ a.locations, l.pickedUp = false)
    {selected : Location → Bool}
    (visited : ∀ key, key ∈ order ↔ key ∈ (a.locations.filter selected).map (·.key)) :
    (a.pickUpAll order).available = a.granted (a.locations.filter selected) := by
  have known : ∀ key ∈ order, key ∈ a.keys := by
    intro key member
    exact (List.filter_sublist.map _).subset ((visited key).mp member)
  rw [available, locations_pickUpAll coherent known, List.filter_map, granted_pickUpAll,
    granted_map a (Location.markedBy order) fun _ => rfl]
  refine congrArg a.granted (List.filter_congr fun l member => ?_)
  rw [Function.comp_apply, Location.markedBy, fresh l member, Bool.false_or, Bool.eq_iff_iff,
    List.contains_iff_mem, visited, List.mem_map]
  constructor
  · rintro ⟨m, chosen, same⟩
    obtain ⟨present, picked⟩ := List.mem_filter.mp chosen
    exact coherent.eq_of_key_eq present member same ▸ picked
  · intro picked
    exact ⟨l, List.mem_filter.mpr ⟨member, picked⟩, rfl⟩

end Atlas

end ItemLogic
