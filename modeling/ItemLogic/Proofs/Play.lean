import ItemLogic.Proofs.Closure
import ItemLogic.Proofs.Pickups

/-!
# The order of play does not matter

A player picks up locations one at a time, each open to what was picked up before it.
Exploration instead takes everything that is open at once, round after round. However
the player goes about it, the closure of nothing is never left, and a player with
nothing left to pick up has come to hold all of it: the locations picked up are then
those that the closure opens.

The invariant of a play is that every location picked up is open to the closure.
What locations grant together grows with the list of them, so a play stays inside the
closure as long as its locations do. A player who is stuck holds a set that is closed,
and the closure is the least of those.
-/

namespace ItemLogic.Atlas

/-- Whether a key may be picked up: it resolves to a location that is open to what has
    been picked up so far. -/
def canPickUp (a : Atlas) (key : Key) : Bool := (a.find? key).any (·.gate.opens a.available)

/-- Whether some keys may be picked up one after the other. -/
def isPlay : Atlas → List Key → Bool
  | _, [] => true
  | a, key :: rest => a.canPickUp key && (a.after (.pickUp key)).isPlay rest

/-- Whether no location is open that is not picked up yet. -/
def isStuck (a : Atlas) : Bool := a.locations.all fun l => l.pickedUp || !l.gate.opens a.available

/-- Every location that is picked up is open to a set. -/
def PickedWithin (a : Atlas) (bound : CapSet) : Prop :=
  ∀ l ∈ a.locations, l.pickedUp = true → l.gate.opens bound = true

variable {a : Atlas}

/-- What was picked up where a set opens is obtained with that set. -/
theorem available_subset_obtained {bound : CapSet} (within : a.PickedWithin bound) :
    a.available ⊆ a.obtained bound :=
  a.granted_filter_subset within

/-- A pickup that is allowed stays where a closed set opens. -/
theorem pickedWithin_after {bound : CapSet} {key : Key} (closed : a.obtained bound ⊆ bound)
    (within : a.PickedWithin bound) (allowed : a.canPickUp key = true) :
    (a.after (.pickUp key)).PickedWithin bound := by
  obtain ⟨l, found, opened⟩ := (Option.any_eq_true _ _).mp allowed
  obtain ⟨i, resolved, present⟩ := Option.bind_eq_some_iff.mp found
  intro m member picked
  simp only [after, pickUp?, resolved, Option.map_some, Option.getD_some] at member
  rcases mem_of_mem_modify member with old | ⟨old, there, rfl⟩
  · exact within m old picked
  · have same : old = l := Option.some.inj (there.symm.trans present)
    have inside : a.available ⊆ bound :=
      CapSet.subset_trans (available_subset_obtained within) closed
    exact Gate.opens_mono inside (same ▸ opened)

/-- A play of any length stays where a closed set opens. -/
theorem pickedWithin_pickUpAll {bound : CapSet} {order : List Key}
    (closed : a.obtained bound ⊆ bound) (within : a.PickedWithin bound)
    (legal : a.isPlay order = true) : (a.pickUpAll order).PickedWithin bound := by
  induction order generalizing a with
  | nil => exact within
  | cons key rest ih =>
    obtain ⟨allowed, later⟩ := Bool.and_eq_true_iff.mp legal
    have kept : (a.after (.pickUp key)).obtained bound ⊆ bound := by
      rw [obtained_after_pickUp]
      exact closed
    exact ih kept (pickedWithin_after closed within allowed) later

/-- What is open to a stuck player has been picked up. -/
theorem pickedUp_of_isStuck (stuck : a.isStuck = true) {l : Location} (member : l ∈ a.locations)
    (opened : l.gate.opens a.available = true) : l.pickedUp = true := by
  have either := List.all_eq_true.mp stuck l member
  simpa [opened] using either

/-- A stuck player obtains nothing more. -/
theorem obtained_available_of_isStuck (stuck : a.isStuck = true) :
    a.obtained a.available ⊆ a.available :=
  a.granted_filter_subset fun _ member opened => pickedUp_of_isStuck stuck member opened

/-- Every legal play from a fresh atlas stays inside the closure of nothing. When it is
    stuck it holds the whole closure, and the locations picked up are exactly those that
    the closure opens. -/
theorem play_settles_at_closure (a : Atlas)
    (fresh : ∀ l ∈ a.locations, l.pickedUp = false) (order : List Key)
    (legal : a.isPlay order = true) :
    (a.pickUpAll order).available ⊆ a.closure ∅ ∧
      ((a.pickUpAll order).isStuck = true →
        (a.pickUpAll order).available = a.closure ∅ ∧
          (a.pickUpAll order).locations.filter (·.pickedUp) =
            (a.pickUpAll order).reachable (a.closure ∅)) := by
  have closed := (a.closure_closedAbove ∅).closed
  have start : a.PickedWithin (a.closure ∅) := fun l member picked => by
    rw [fresh l member] at picked
    cases picked
  have within := pickedWithin_pickUpAll closed start legal
  have inside : (a.pickUpAll order).available ⊆ a.closure ∅ := by
    have obtained := available_subset_obtained within
    rw [obtained_pickUpAll] at obtained
    exact CapSet.subset_trans obtained closed
  refine ⟨inside, fun stuck => ?_⟩
  have resting := obtained_available_of_isStuck stuck
  rw [obtained_pickUpAll] at resting
  have whole : (a.pickUpAll order).available = a.closure ∅ :=
    CapSet.subset_antisymm inside (closure_subset ⟨CapSet.empty_subset _, resting⟩)
  refine ⟨whole, List.filter_congr fun l member => ?_⟩
  rw [Bool.eq_iff_iff]
  constructor
  · exact within l member
  · intro opened
    exact pickedUp_of_isStuck stuck member (whole ▸ opened)

/-- A small game: two copies of the keycard, the second behind what the first opens, a mask
    behind what both of them open, a potion, and a tablet that is never reached. -/
def cardHistory : List Change :=
  [.add ⟨.spot 1 2 0 0, "Lake Desolation", "behind the second door", .needs {.cardC},
      some (.simple (.relic .waterMask) {.swimming}), false⟩,
   .add ⟨.spot 1 1 0 0, "Lake Desolation", "in the open", .free,
      some Catalog.stagedKeycard, false⟩,
   .add ⟨.ofRoom 2 1, "Library", "behind the first door", .needs {.cardD},
      some Catalog.stagedKeycard, false⟩,
   .add ⟨.spot 2 2 0 0, "Library", "on a shelf", .free,
      some (.simple (.useItem .potion) ∅), false⟩,
   .add ⟨.spot 3 1 0 0, "Pyramid", "out of reach", .needs {.teleport},
      some (.simple (.relic .tablet) {.tablet}), false⟩]

/-- The atlas of the small game, with nothing picked up. -/
def cardHunt : Atlas := ofHistory ⟨⟨0⟩, ∅⟩ {} cardHistory

/-- A play of the small game that takes everything within reach; one key is positional and
    resolves to the location that is keyed by its room. -/
def cardOrder : List Key := [.spot 1 1 0 0, .spot 2 1 8 8, .spot 2 2 0 0, .spot 1 2 0 0]

/-- The play of the small game is legal and gets stuck with the closure in hand. -/
theorem cardHunt_settles :
    (∀ l ∈ cardHunt.locations, l.pickedUp = false) ∧ cardHunt.isPlay cardOrder = true ∧
      (cardHunt.pickUpAll cardOrder).isStuck = true ∧
      (cardHunt.pickUpAll cardOrder).available = cardHunt.closure ∅ ∧
      cardHunt.closure ∅ = {.cardD, .cardC, .swimming} := by
  have fresh : ∀ l ∈ cardHunt.locations, l.pickedUp = false := by decide +kernel
  have legal : cardHunt.isPlay cardOrder = true := by decide +kernel
  have stuck : (cardHunt.pickUpAll cardOrder).isStuck = true := by decide +kernel
  obtain ⟨_, settled⟩ := play_settles_at_closure cardHunt fresh cardOrder legal
  exact ⟨fresh, legal, stuck, (settled stuck).1, by decide +kernel⟩

end ItemLogic.Atlas
