import ItemLogic.Proofs.Coherence
import ItemLogic.Proofs.Grants

/-!
# Items come from the history

Whatever an atlas holds was brought by some change of its history: every item that lies
somewhere, and the stages of every chain. A chain keeps the stages of the copy that
registered it, so in general a later copy may come with other stages than those that the
chain grants.

When all copies of an item come with the same stages, what a copy says about itself is what
its chain grants. Locations that hold no progression then contribute nothing: they add
neither an unlock nor a copy that counts.
-/

namespace ItemLogic

/-- Whether two items are not copies of one item with different stages. -/
def Item.agreesWith : Item → Item → Bool
  | .progressive id chain, .progressive other chain' => id ≠ other || chain.stages = chain'.stages
  | _, _ => true

/-- Copies of one item that agree have the same stages. -/
theorem Item.stages_eq_of_agreesWith {id : ItemId} {chain other : Chain}
    (agree : (Item.progressive id chain).agreesWith (.progressive id other) = true) :
    chain.stages = other.stages := by
  simpa [agreesWith] using agree

/-- Whether a copy is progression depends on its stages alone. -/
theorem Item.isProgression_of_stages (id : ItemId) {chain other : Chain}
    (same : chain.stages = other.stages) :
    (Item.progressive id chain).isProgression = (Item.progressive id other).isProgression := by
  have possible : (Item.progressive id chain).possibleUnlocks =
      (Item.progressive id other).possibleUnlocks := congrArg CapSet.unionAll same
  exact congrArg (fun set : CapSet => decide (set ≠ ∅)) possible

/-- A location that counts as a copy holds one. -/
theorem Atlas.exists_copy_of_counted {l : Location} {id : ItemId}
    (counted : (l.item.any fun item => item.isProgressive && item.id = id) = true) :
    ∃ chain, l.item = some (.progressive id chain) := by
  obtain ⟨item, holds, copy⟩ := (Option.any_eq_true _ _).mp counted
  obtain ⟨progressive, same⟩ := Bool.and_eq_true_iff.mp copy
  cases item with
  | simple name unlocks => cases progressive
  | progressive name chain =>
    obtain rfl : name = id := of_decide_eq_true same
    exact ⟨chain, holds⟩

/-- What an item grants among some locations belongs to some stage of the item, provided
    that its chain has the same stages. -/
theorem Atlas.isProgression_of_mem_grantAmong {a : Atlas} {locations : List Location}
    {item : Item} {c : Capability}
    (same : ∀ id chain, item = .progressive id chain →
      ((a.chain? id).getD chain).stages = chain.stages)
    (grants : c ∈ a.grantAmong locations item) : item.isProgression = true := by
  have possible : c ∈ item.possibleUnlocks := by
    cases item with
    | simple id unlocks =>
      exact CapSet.mem_unionAll.mpr ⟨unlocks, List.mem_singleton_self unlocks, grants⟩
    | progressive id chain =>
      obtain ⟨stage, listed, member⟩ := Chain.exists_stage_of_mem_unlockedBy grants
      rw [same id chain rfl] at listed
      exact CapSet.mem_unionAll.mpr ⟨stage, listed, member⟩
  refine decide_eq_true fun none => ?_
  rw [none] at possible
  exact CapSet.not_mem_empty c possible

/-- The items that the changes of a history bring, in order. -/
def broughtBy (history : List Change) : List Item := history.filterMap Change.item?

/-- Whether all copies of an item that a history brings have the same stages. -/
def carriesOneStageList (history : List Change) : Bool :=
  (broughtBy history).all fun item => (broughtBy history).all item.agreesWith

namespace Atlas

/-- Everything in the atlas is among some items: what lies at its locations, and for every
    chain a copy with its stages. -/
structure MadeOf (items : List Item) (a : Atlas) : Prop where
  held : ∀ l ∈ a.locations, ∀ item, l.item = some item → item ∈ items
  shared : ∀ entry ∈ a.chains, ∃ chain,
    Item.progressive entry.1 chain ∈ items ∧ entry.2.stages = chain.stages

variable {items : List Item} {a : Atlas}

/-- In an atlas without locations there is nothing, so all of it is among any items. -/
theorem madeOf_empty (items : List Item) (unlocks : Unlocks) (options : Options) :
    (empty unlocks options).MadeOf items where
  held _ member := absurd member List.not_mem_nil
  shared _ member := absurd member List.not_mem_nil

/-- A registered copy gives its stages to the chain. -/
theorem MadeOf.shared_register (made : a.MadeOf items) {item : Option Item}
    (brought : ∀ new, item = some new → new ∈ items) :
    ∀ entry ∈ register a.chains item, ∃ chain,
      Item.progressive entry.1 chain ∈ items ∧ entry.2.stages = chain.stages := by
  refine forall_mem_register made.shared fun id chain new => ?_
  exact ⟨chain, brought _ new, rfl⟩

/-- A change brings nothing into an atlas but the item that it names. -/
theorem madeOf_after (made : a.MadeOf items) {change : Change}
    (brought : ∀ item, change.item? = some item → item ∈ items) :
    (a.after change).MadeOf items := by
  cases change with
  | add l =>
    rw [after, add]
    split
    · exact made
    · refine ⟨fun m member item holds => ?_, made.shared_register brought⟩
      rcases List.mem_append.mp member with old | new
      · exact made.held m old item holds
      · cases List.mem_singleton.mp new
        exact brought item holds
  | place key new =>
    rw [after, place]
    split
    · refine ⟨fun m member item holds => ?_, made.shared_register brought⟩
      rcases mem_of_mem_modify member with old | ⟨old, _, rfl⟩
      · exact made.held m old item holds
      · exact brought item holds
    · exact made
  | pickUp key =>
    rw [after]
    cases picked : a.pickUp? key with
    | none => exact made
    | some b =>
      obtain ⟨i, _, rfl⟩ := Option.map_eq_some_iff.mp picked
      refine ⟨fun m member item holds => ?_, made.shared⟩
      rcases mem_of_mem_modify member with old | ⟨old, found, rfl⟩
      · exact made.held m old item holds
      · exact made.held old (List.mem_of_getElem? found) item holds
  | resume save =>
    refine ⟨fun m member item holds => ?_, fun entry member => ?_⟩
    · obtain ⟨old, present, rfl⟩ := List.mem_map.mp member
      exact made.held old present item holds
    · obtain ⟨old, present, rfl⟩ := List.mem_map.mp member
      exact made.shared old present
  | setGoal goal => exact ⟨made.held, made.shared⟩

/-- The atlas of a history is made of what the history brings. -/
theorem madeOf_ofHistory (unlocks : Unlocks) (options : Options) (history : List Change) :
    (ofHistory unlocks options history).MadeOf (broughtBy history) := by
  refine replay_induction (madeOf_empty _ unlocks options) fun b change member made => ?_
  refine madeOf_after made fun item brings => ?_
  exact List.mem_filterMap.mpr ⟨change, member, brings⟩

/-- Every copy in the atlas has the stages of the chain that it shares, and every two copies
    of one item have the same stages. -/
structure Uniform (a : Atlas) : Prop where
  shared : ∀ l ∈ a.locations, ∀ id chain, l.item = some (.progressive id chain) →
    ((a.chain? id).getD chain).stages = chain.stages
  copies : ∀ l ∈ a.locations, ∀ m ∈ a.locations, ∀ id chain other,
    l.item = some (.progressive id chain) → m.item = some (.progressive id other) →
      chain.stages = other.stages

/-- A history that carries one list of stages for each item leads to a uniform atlas. -/
theorem uniform_ofHistory (unlocks : Unlocks) (options : Options) {history : List Change}
    (agreed : carriesOneStageList history = true) :
    (ofHistory unlocks options history).Uniform := by
  have made := madeOf_ofHistory unlocks options history
  have agree : ∀ id chain other, Item.progressive id chain ∈ broughtBy history →
      Item.progressive id other ∈ broughtBy history → chain.stages = other.stages := by
    intro id chain other first second
    have both := List.all_eq_true.mp (List.all_eq_true.mp agreed _ first) _ second
    exact Item.stages_eq_of_agreesWith both
  refine ⟨fun l member id chain holds => ?_, fun l first m second id chain other holds more => ?_⟩
  · have brought := made.held l member _ holds
    cases found : (ofHistory unlocks options history).chain? id with
    | none => rfl
    | some shared =>
      obtain ⟨_, _, chains, _⟩ := List.lookup_eq_some_iff.mp found
      have registered : (id, shared) ∈ (ofHistory unlocks options history).chains := by
        rw [chains]
        exact List.mem_append_right _ List.mem_cons_self
      obtain ⟨copy, listed, stages⟩ := made.shared (id, shared) registered
      rw [Option.getD_some, stages]
      exact agree id copy chain listed brought
  · exact agree id chain other (made.held l first _ holds) (made.held m second _ more)

/-- Leaving out what holds no progression leaves out no copy of an item that does, as all
    copies have the same stages. -/
theorem copies_filter_holdsProgression (uniform : a.Uniform) {locations : List Location}
    (within : ∀ l ∈ locations, l ∈ a.locations) {l : Location} (member : l ∈ locations)
    {id : ItemId} {chain : Chain} (holds : l.item = some (.progressive id chain))
    (progression : (Item.progressive id chain).isProgression = true) :
    copies (locations.filter (·.holdsProgression)) id = copies locations id := by
  rw [copies, copies, List.countP_filter]
  refine List.countP_congr fun m other => ?_
  rw [Bool.and_eq_true]
  refine and_iff_left_of_imp fun counted => ?_
  obtain ⟨mine, found⟩ := exists_copy_of_counted counted
  have stages : mine.stages = chain.stages :=
    uniform.copies m (within m other) l (within l member) id mine chain found holds
  rw [Location.holdsProgression, found, Option.any_some, Item.isProgression_of_stages id stages]
  exact progression

/-- In a uniform atlas, locations that hold no progression contribute nothing. -/
theorem granted_filter_holdsProgression (uniform : a.Uniform) {locations : List Location}
    (within : ∀ l ∈ locations, l ∈ a.locations) :
    a.granted (locations.filter (·.holdsProgression)) = a.granted locations := by
  refine CapSet.subset_antisymm (a.granted_mono List.filter_sublist) ?_
  refine CapSet.subset_iff.mpr fun c granted => ?_
  obtain ⟨l, member, item, holds, grants⟩ := mem_granted.mp granted
  have progression : item.isProgression = true :=
    isProgression_of_mem_grantAmong
      (fun id chain same => uniform.shared l (within l member) id chain (same ▸ holds)) grants
  have listed : l ∈ locations.filter (·.holdsProgression) := by
    refine List.mem_filter.mpr ⟨member, ?_⟩
    simpa [Location.holdsProgression, holds] using progression
  refine mem_granted.mpr ⟨l, listed, item, holds, ?_⟩
  cases item with
  | simple id unlocks => exact grants
  | progressive id chain =>
    rw [grantAmong, copies_filter_holdsProgression uniform within member holds progression]
    exact grants

end Atlas

end ItemLogic
