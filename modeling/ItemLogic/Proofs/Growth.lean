import ItemLogic.Proofs.Placing
import ItemLogic.Proofs.WhatMatters

/-!
# More never takes anything away

Exploration keeps containment in two ways. A player who holds more finds all that a player who
holds less does, in the same order, however many copies there are and whatever the stages of an
item. And a world that has grown, by a location or by an item where there was none, still grants
whatever it granted before.

The second rests on the register of chains. A copy of an item may bring stages of its own, but it
makes the chain only where no other copy lies: a copy that lay somewhere before has its chain
already, and the new one leaves that chain alone and is counted along it.
-/

namespace ItemLogic.Atlas

variable {a b : Atlas}

/-- Progression in reach stays in reach with more in hand, in the same order. -/
theorem reachableProgression_sublist (a : Atlas) {held more : CapSet} (contained : held ⊆ more) :
    (a.reachableProgression held).Sublist (a.reachableProgression more) :=
  (a.reachable_sublist contained).filter _

/-- With more in hand a player reaches what was in reach with less, progression and all else in
    the order of the atlas, and obtains no less. -/
theorem more_in_hand_finds_no_less (a : Atlas) {held more : CapSet} (contained : held ⊆ more) :
    (a.reachable held).Sublist (a.reachable more) ∧
      (a.reachableProgression held).Sublist (a.reachableProgression more) ∧
      a.obtained held ⊆ a.obtained more := by
  refine ⟨a.reachable_sublist contained, a.reachableProgression_sublist contained, ?_⟩
  exact a.obtained_mono contained

/-- A copy of an item whose stages come in no order: the second grants nothing of the first. -/
def strayCopy (key : Key) (gate : Gate) : Location :=
  ⟨key, "", "", gate,
    some (.progressive (.upgrade .scienceKeycard) (.ofStages [{.cardD}, {.cardC}])), false⟩

/-- Three copies of an item of two stages, two of them behind what the first opens. -/
def strayCopies : List Change :=
  [.add (strayCopy (.spot 1 1 0 0) .free),
   .add (strayCopy (.spot 1 2 0 0) (.needs {.cardD})),
   .add ⟨.spot 1 3 0 0, "", "", .free, some (.simple (.useItem .potion) ∅), false⟩,
   .add (strayCopy (.ofRoom 1 4) (.needs {.cardD}))]

/-- The first card opens the way to more copies than there are stages left. -/
theorem strayCopies_with_card :
    let a := ofHistory ⟨⟨0⟩, ∅⟩ {} strayCopies
    (∅ : CapSet) ⊆ {.cardD} ∧ (a.reachable ∅).Sublist (a.reachable {.cardD}) ∧
      (a.reachableProgression ∅).Sublist (a.reachableProgression {.cardD}) ∧
      a.obtained ∅ ⊆ a.obtained {.cardD} ∧
      (a.reachable ∅).map (·.key) = [.spot 1 1 0 0, .spot 1 3 0 0] ∧ a.obtained ∅ = {.cardD} ∧
      (a.reachableProgression {.cardD}).map (·.key) =
        [.spot 1 1 0 0, .spot 1 2 0 0, .ofRoom 1 4] ∧
      a.obtained {.cardD} = {.cardD, .cardC} := by
  intro a
  have contained : (∅ : CapSet) ⊆ {.cardD} := CapSet.empty_subset _
  obtain ⟨reached, progression, obtained⟩ := a.more_in_hand_finds_no_less contained
  refine ⟨contained, reached, progression, obtained, ?_⟩
  decide +kernel

/-! ### Worlds that grow -/

/-- What matters in one atlas stands in the other in the same order, and its copies lead up the
    same chains there. -/
structure GrowsInto (a b : Atlas) : Prop where
  matters : (a.locations.filter (·.matters)).Sublist b.locations
  shared : ∀ l ∈ a.locations, ∀ id chain, l.item = some (.progressive id chain) →
    (a.chain? id).getD chain = (b.chain? id).getD chain

/-- The other atlas grants at least as much: in one step, in the end, and for what has been
    picked up. -/
structure GrantsNoMoreThan (a b : Atlas) : Prop where
  obtained : ∀ held, a.obtained held ⊆ b.obtained held
  closure : ∀ initial, a.closure initial ⊆ b.closure initial
  available : a.available ⊆ b.available

/-- Whatever locations are selected, those of the larger atlas grant no less. -/
theorem GrowsInto.granted_filter (grows : a.GrowsInto b) (selected : Location → Bool) :
    a.granted (a.locations.filter selected) ⊆ b.granted (b.locations.filter selected) := by
  have shared : a.granted (a.locations.filter selected) =
      b.granted (a.locations.filter selected) :=
    granted_of_shared fun l member => grows.shared l (List.mem_of_mem_filter member)
  rw [shared, ← granted_filter_matters, List.filter_comm]
  exact b.granted_mono (grows.matters.filter selected)

/-- An atlas that has grown grants no less: in a step, in the end, and for what is picked up. -/
theorem GrowsInto.grantsNoMoreThan (grows : a.GrowsInto b) : a.GrantsNoMoreThan b := by
  have obtained (held : CapSet) : a.obtained held ⊆ b.obtained held :=
    grows.granted_filter (·.gate.opens held)
  refine ⟨obtained, fun initial => ?_, grows.granted_filter (·.pickedUp)⟩
  -- The larger closure is closed for the smaller atlas as well, which therefore ends inside it.
  have above := b.closure_closedAbove initial
  exact closure_subset ⟨above.holds, CapSet.subset_trans (obtained _) above.closed⟩

/-- A copy that lies somewhere leads up the same chain after an item has been registered. -/
theorem Coherent.shared_of_register (coherent : a.Coherent) {item : Option Item}
    (registers : b.chains = register a.chains item) {l : Location} (member : l ∈ a.locations)
    {id : ItemId} {chain : Chain} (holds : l.item = some (.progressive id chain)) :
    (a.chain? id).getD chain = (b.chain? id).getD chain := by
  obtain ⟨shared, found⟩ :=
    Option.isSome_iff_exists.mp (coherent.registered l member id chain holds)
  have kept : b.chain? id = some shared := by
    rw [chain?, registers, lookup_register, ← chain?, found]
    rfl
  rw [found, kept]

/-- An atlas grows into what it is with one more location. -/
theorem growsInto_of_add (coherent : a.Coherent) {l : Location} (added : a.add l = .ok b) :
    a.GrowsInto b := by
  rw [add] at added
  split at added
  · cases added
  · cases added
    refine ⟨?_, fun m member id chain => coherent.shared_of_register rfl member⟩
    exact List.filter_sublist.trans (List.sublist_append_left _ _)

/-- Changing a location that does not matter leaves those that do where they are. -/
theorem filter_matters_sublist_modify {locations : List Location} {i : Nat} {l : Location}
    (there : locations[i]? = some l) (idle : l.matters = false) (change : Location → Location) :
    (locations.filter (·.matters)).Sublist (locations.modify i change) := by
  induction locations generalizing i with
  | nil => simp
  | cons first rest ih =>
    cases i with
    | zero =>
      obtain rfl : first = l := Option.some.inj there
      rw [List.filter_cons_of_neg (by simp [idle])]
      exact List.filter_sublist.trans (List.sublist_cons_self _ _)
    | succ i =>
      have later := ih there
      rw [List.modify_succ_cons]
      cases important : first.matters with
      | true =>
        rw [List.filter_cons_of_pos important]
        exact later.cons_cons first
      | false =>
        rw [List.filter_cons_of_neg (by simp [important])]
        exact later.cons first

/-- An item that is written where nothing lies makes the atlas grow. -/
theorem growsInto_written (coherent : a.Coherent) {i : Nat} {l : Location}
    (there : a.locations[i]? = some l) (vacant : l.item = none) (item : Option Item) :
    a.GrowsInto (a.written i item) := by
  have idle : l.matters = false := by simp [Location.matters, vacant]
  exact ⟨filter_matters_sublist_modify there idle _,
    fun m member id chain => coherent.shared_of_register rfl member⟩

/-- A location that finds its place, and an item that is put where nothing lies, take nothing away
    from the atlas of any history: what it granted it still grants, in one step and in the end,
    and so does what has been picked up. -/
theorem growth_takes_nothing_away (unlocks : Unlocks) (options : Options)
    (history : List Change) :
    let a := ofHistory unlocks options history
    (∀ l b, a.add l = .ok b → a.GrantsNoMoreThan b) ∧
      ∀ key l item, a.find? key = some l → l.item = none →
        ∃ b, a.place key (some item) = .ok b ∧ a.GrantsNoMoreThan b := by
  intro a
  have coherent : a.Coherent := coherent_ofHistory unlocks options history
  refine ⟨fun l b added => (growsInto_of_add coherent added).grantsNoMoreThan, ?_⟩
  intro key l item found vacant
  obtain ⟨i, resolved, there⟩ := Option.bind_eq_some_iff.mp found
  have grows := growsInto_written coherent there vacant (some item)
  exact ⟨_, place_of_resolved resolved _, grows.grantsNoMoreThan⟩

/-- A copy in the open, which has been picked up, and an empty room behind what it opens. -/
def vacantRoom : List Change :=
  [.add { strayCopy (.spot 1 1 0 0) .free with pickedUp := true },
   .add ⟨.ofRoom 2 1, "", "", .needs {.cardD}, none, false⟩]

/-- A copy with a stage of its own, added behind a closed door or put into the empty room, leaves
    the chain as it is. In the room it is the second copy of the chain. -/
theorem vacantRoom_grows :
    let a := ofHistory ⟨⟨0⟩, ∅⟩ {} vacantRoom
    let other : Item := .progressive (.upgrade .scienceKeycard) (.ofStages [{.teleport}])
    (∃ b, a.add ⟨.spot 3 1 0 0, "", "", .needs {.cardA}, some other, false⟩ = .ok b ∧
        a.GrantsNoMoreThan b) ∧
      (∃ l, a.find? (.spot 2 1 8 8) = some l ∧ l.item = none) ∧
      (∃ b, a.place (.spot 2 1 8 8) (some other) = .ok b ∧ a.GrantsNoMoreThan b) ∧
      a.closure ∅ = {.cardD} ∧
      (a.place (.spot 2 1 8 8) (some other)).toOption.map (·.closure ∅) =
        some {.cardD, .cardC} := by
  intro a other
  obtain ⟨adding, placing⟩ := growth_takes_nothing_away ⟨⟨0⟩, ∅⟩ {} vacantRoom
  have found : a.find? (.spot 2 1 8 8) =
      some ⟨.ofRoom 2 1, "", "", .needs {.cardD}, none, false⟩ := by decide +kernel
  have fits : (a.add ⟨.spot 3 1 0 0, "", "", .needs {.cardA}, some other, false⟩).toOption.isSome =
      true := by decide +kernel
  refine ⟨?_, ⟨_, found, rfl⟩, placing _ _ other found rfl, by decide +kernel, by decide +kernel⟩
  cases added : a.add ⟨.spot 3 1 0 0, "", "", .needs {.cardA}, some other, false⟩ with
  | error fault =>
    rw [added] at fits
    cases fits
  | ok b => exact ⟨b, rfl, adding _ b added⟩

end ItemLogic.Atlas
