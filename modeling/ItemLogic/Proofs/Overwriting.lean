import ItemLogic.Proofs.Completion
import ItemLogic.Proofs.Placing
import ItemLogic.Proofs.Provenance

/-!
# What was placed before

An item that is placed over another takes its place, and in general nothing tells that the other
was ever there. What the other may leave behind is its chain: a copy of an item registers the
stages that it brings where the item has no chain yet, and chains are never taken away. If the
second item is a copy of the same item, it then leads up the chain of the first.

There is only that one copy, so it walks one stage. The last item placed therefore decides every
answer, unless both are copies of one item that had no chain, and their first stages differ. In
that case the first stage of the first copy stays, and exploration and the verdict are those of an
atlas in which only the first was placed.
-/

namespace ItemLogic

/-- Chains whose current stages are the same grant the same for one pickup at most. -/
theorem Chain.unlockedBy_of_le_one {chain other : Chain}
    (same : chain.currentGrant = other.currentGrant) {pickups : Nat} (bounded : pickups ≤ 1) :
    chain.unlockedBy pickups = other.unlockedBy pickups := by
  cases pickups with
  | zero => rfl
  | succ pickups =>
    obtain rfl : pickups = 0 := Nat.le_zero.mp (Nat.le_of_succ_le_succ bounded)
    rw [unlockedBy_succ, unlockedBy_succ, same, unlockedBy_zero, unlockedBy_zero]

namespace Atlas

variable {a b : Atlas} {x y : Option Item} {i : Nat}

/-! ### Atlases that answer alike -/

/-- Nothing that is asked about exploration or completion tells the atlases apart. -/
structure AnswersLike (a b : Atlas) : Prop where
  reachable : a.reachable = b.reachable
  reachableProgression : a.reachableProgression = b.reachableProgression
  obtained : a.obtained = b.obtained
  closure : a.closure = b.closure
  available : a.available = b.available
  waves : a.waves = b.waves
  verdict : a.verdict = b.verdict

/-- Two atlases of one game: the same goal, the same options, the same unlocks. -/
structure SameGame (a b : Atlas) : Prop where
  goal : a.goal = b.goal
  options : a.options = b.options
  unlocks : a.unlocks = b.unlocks

/-- What is reachable is seen from the locations alone. -/
theorem reachable_of_locations (same : a.locations = b.locations) : a.reachable = b.reachable := by
  funext held
  rw [reachable, reachable, same]

/-- Atlases of one game with the same locations answer alike if whatever selection of these
    grants the same in both. -/
theorem answersLike_of_granted (game : a.SameGame b) (locations : a.locations = b.locations)
    (granted : ∀ ls, ls.Sublist a.locations → a.granted ls = b.granted ls) : a.AnswersLike b := by
  have reachable := reachable_of_locations locations
  have progression : a.reachableProgression = b.reachableProgression := by
    funext held
    rw [Atlas.reachableProgression, Atlas.reachableProgression, reachable]
  have obtained : a.obtained = b.obtained := by
    funext held
    rw [Atlas.obtained, Atlas.obtained, ← reachable]
    exact granted _ List.filter_sublist
  have gasMask : a.gasMaskInReach = b.gasMaskInReach := by
    rw [gasMaskInReach, gasMaskInReach, gasMask?, gasMask?, locations,
      inReachOfMaw_congr game.unlocks (by rw [game.options])]
  refine ⟨reachable, progression, obtained, closure_of_obtained obtained, ?_,
    waves_of_obtained obtained progression,
    verdict_of_obtained obtained game.goal (by rw [game.options]) gasMask ?_⟩
  · rw [available, available, ← locations]
    exact granted _ List.filter_sublist
  · rw [clash?, clash?, locations]

/-! ### Writing to a position -/

/-- Of two items that are written to one position the second stays. -/
theorem locations_written_written (a : Atlas) (i : Nat) (x y : Option Item) :
    ((a.written i x).written i y).locations = (a.written i y).locations := by
  rw [written, written, List.modify_modify_eq]
  rfl

/-- A chain that is there stays when an item is written, and the item brings its own otherwise. -/
theorem chain?_written (a : Atlas) (i : Nat) (item : Option Item) (id : ItemId) :
    (a.written i item).chain? id = (a.chain? id).or (broughtChain? item id) :=
  lookup_register a.chains item id

/-- No copy lies anywhere of an item without a chain. -/
theorem Coherent.copies_eq_zero (coherent : a.Coherent) {id : ItemId} (none : a.chain? id = none) :
    copies a.locations id = 0 := by
  refine List.countP_eq_zero.mpr fun l member counted => ?_
  obtain ⟨chain, holds⟩ := exists_copy_of_counted counted
  have registered := coherent.registered l member id chain holds
  rw [none] at registered
  cases registered

/-- Changing one location makes one more copy at most. -/
theorem copies_modify_le (locations : List Location) (i : Nat) (change : Location → Location)
    (id : ItemId) : copies (locations.modify i change) id ≤ copies locations id + 1 := by
  induction locations generalizing i with
  | nil => simp [copies]
  | cons first rest ih =>
    cases i with
    | zero =>
      simp only [List.modify_zero_cons, copies, List.countP_cons]
      split <;> omega
    | succ i =>
      have later := ih i
      simp only [List.modify_succ_cons, copies, List.countP_cons] at later ⊢
      omega

/-! ### The last item decides -/

/-- Whether an item would leave its first stage to the one that is placed over it: both are copies
    of one item, which has no chain yet, and their first stages differ. -/
def leavesStage (a : Atlas) : Option Item → Option Item → Bool
  | some (.progressive id old), some (.progressive other new) =>
    id = other && (a.chain? id).isNone &&
      old.restarted.currentGrant ≠ new.restarted.currentGrant
  | _, _ => false

/-- A copy in the atlas after two items have been written to one position grants what it grants
    after the second alone. Where no chain was there before, it is the only copy of its item. -/
theorem grantAmong_written_written (coherent : a.Coherent) (kept : a.leavesStage x y = false)
    {ls : List Location} (within : ls.Sublist (a.written i y).locations) {l : Location}
    (member : l ∈ ls) {id : ItemId} {chain : Chain}
    (holds : l.item = some (.progressive id chain)) :
    ((a.written i x).written i y).grantAmong ls (.progressive id chain) =
      (a.written i y).grantAmong ls (.progressive id chain) := by
  rw [grantAmong, grantAmong, chain?_written, chain?_written, chain?_written]
  cases registered : a.chain? id with
  | some shared => rfl
  | none =>
    have placed : y = some (.progressive id chain) := by
      rcases mem_of_mem_modify (within.subset member) with old | ⟨old, _, rfl⟩
      · have known := coherent.registered l old id chain holds
        rw [registered] at known
        cases known
      · exact holds
    have single : copies ls id ≤ 1 := by
      have counted : copies ls id ≤ copies (a.written i y).locations id := within.countP_le
      have bound := copies_modify_le a.locations i (fun l => { l with item := y }) id
      rw [coherent.copies_eq_zero registered] at bound
      exact Nat.le_trans counted bound
    rw [placed] at kept ⊢
    cases x with
    | none => rfl
    | some first =>
      cases first with
      | simple name unlocks => rfl
      | progressive name old =>
        by_cases same : name = id
        · have stage : old.restarted.currentGrant = chain.restarted.currentGrant := by
            simpa [leavesStage, same, registered] using kept
          simpa [broughtChain?, same] using Chain.unlockedBy_of_le_one stage single
        · simp [broughtChain?, same]

/-- Two items that are written to one position, the second over the first, are answered for as the
    second alone is. -/
theorem answersLike_written_written (coherent : a.Coherent) (kept : a.leavesStage x y = false)
    (i : Nat) : ((a.written i x).written i y).AnswersLike (a.written i y) := by
  have locations := a.locations_written_written i x y
  refine answersLike_of_granted ⟨rfl, rfl, rfl⟩ locations fun ls within => ?_
  rw [locations] at within
  refine granted_of_grantAmong fun l member item holds => ?_
  cases item with
  | simple id unlocks => rfl
  | progressive id chain => exact grantAmong_written_written coherent kept within member holds

end Atlas

/-! ### The stages that copies bring along -/

/-- The item without the stages that it brings along. -/
def Item.unstaged : Item → Item
  | .simple id unlocks => .simple id unlocks
  | .progressive id _ => .progressive id (.ofStages [])

/-- The location with an item of which only the chain knows the stages. -/
def Location.unstaged (l : Location) : Location := { l with item := l.item.map Item.unstaged }

/-- An item without its stages is still the same item. -/
@[simp] theorem Item.id_unstaged (item : Item) : item.unstaged.id = item.id := by
  cases item <;> rfl

/-- A copy without its stages is still a copy. -/
@[simp] theorem Item.isProgressive_unstaged (item : Item) :
    item.unstaged.isProgressive = item.isProgressive := by
  cases item <;> rfl

namespace Atlas

variable {a b : Atlas} {x y : Option Item} {i : Nat}

/-- Counting copies does not look at their stages. -/
theorem copies_unstaged (ls : List Location) (id : ItemId) :
    copies (ls.map Location.unstaged) id = copies ls id := by
  simp [copies, List.countP_map, Function.comp_def, Location.unstaged, Option.any_map]

/-- Where every copy has a chain, nobody looks at the stages that copies bring along. -/
theorem granted_unstaged {ls : List Location}
    (registered : ∀ l ∈ ls, ∀ id chain, l.item = some (.progressive id chain) →
      (a.chain? id).isSome) : a.granted (ls.map Location.unstaged) = a.granted ls := by
  have items : (ls.map Location.unstaged).filterMap (·.item) =
      (ls.filterMap (·.item)).map Item.unstaged := by
    rw [List.filterMap_map, List.map_filterMap]
    rfl
  rw [granted, granted, items, List.map_map]
  refine congrArg CapSet.unionAll (List.map_congr_left fun item brought => ?_)
  obtain ⟨l, member, holds⟩ := List.mem_filterMap.mp brought
  cases item with
  | simple id unlocks => rfl
  | progressive id chain =>
    have known := registered l member id chain holds
    rw [Function.comp_apply, Item.unstaged, grantAmong_of_registered known ls chain (.ofStages []),
      grantAmong, grantAmong, copies_unstaged]

/-- The search for two copies in one room does not look at their stages. -/
theorem clashAmong_unstaged (seen : List (ItemId × Key)) (ls : List Location) :
    clashAmong seen (ls.map Location.unstaged) = clashAmong seen ls := by
  induction ls generalizing seen with
  | nil => rfl
  | cons l rest ih =>
    rw [List.map_cons, clashAmong, clashAmong]
    cases holds : l.item with
    | none => simp [Location.unstaged, holds, ih]
    | some item => cases item <;> simp [Location.unstaged, holds, Item.unstaged, ih]

/-- Two atlases of one game with the same chains differ only in the stages that copies bring. -/
structure StagedAlike (a b : Atlas) : Prop where
  game : a.SameGame b
  locations : a.locations.map Location.unstaged = b.locations.map Location.unstaged
  chains : a.chain? = b.chain?

namespace StagedAlike

variable (alike : a.StagedAlike b) (coherent_a : a.Coherent) (coherent_b : b.Coherent)

include alike coherent_a coherent_b

/-- A selection that does not look at items grants the same. -/
theorem granted_filter {selected : Location → Bool}
    (blind : ∀ l, selected l.unstaged = selected l) :
    a.granted (a.locations.filter selected) = b.granted (b.locations.filter selected) := by
  have filtered (c : Atlas) : (c.locations.filter selected).map Location.unstaged =
      (c.locations.map Location.unstaged).filter selected := by
    rw [List.filter_map]
    congr 2
    funext l
    exact (blind l).symm
  have plain (c : Atlas) (coherent : c.Coherent) : c.granted (c.locations.filter selected) =
      c.granted ((c.locations.map Location.unstaged).filter selected) := by
    rw [← filtered, granted_unstaged]
    exact fun l member => coherent.registered l (List.mem_of_mem_filter member)
  rw [plain a coherent_a, plain b coherent_b, alike.locations]
  exact granted_of_shared fun l _ id chain _ => by rw [alike.chains]

/-- The same is obtained from a held set. -/
theorem obtained : a.obtained = b.obtained := by
  funext held
  exact alike.granted_filter coherent_a coherent_b fun _ => rfl

/-- The same is available from what is picked up. -/
theorem available : a.available = b.available :=
  alike.granted_filter coherent_a coherent_b fun _ => rfl

/-- The same verdict is given. -/
theorem verdict : a.verdict = b.verdict := by
  have found (c : Atlas) : c.gasMaskInReach =
      ((c.locations.map Location.unstaged).find? fun l =>
        l.item.any fun item => item.id = .relic .airMask).any c.inReachOfMaw := by
    have mask : ((fun l : Location => l.item.any fun item => item.id = .relic .airMask) ∘
        Location.unstaged) = fun l => l.item.any fun item => item.id = .relic .airMask := by
      funext l
      simp [Location.unstaged, Option.any_map]
    rw [gasMaskInReach, gasMask?, List.find?_map, mask, Option.any_map]
    rfl
  have obtained := alike.obtained coherent_a coherent_b
  refine verdict_of_obtained obtained alike.game.goal (by rw [alike.game.options]) ?_ ?_
  · rw [found, found, alike.locations,
      inReachOfMaw_congr alike.game.unlocks (by rw [alike.game.options])]
  · rw [clash?, clash?, ← clashAmong_unstaged, alike.locations, clashAmong_unstaged]

end StagedAlike

/-- A first stage that is left to the second item comes with the chain of the first. -/
theorem stagedAlike_of_leavesStage (left : a.leavesStage x y = true) (i : Nat) :
    ((a.written i x).written i y).StagedAlike (a.written i x) := by
  unfold leavesStage at left
  split at left
  · rename_i id old other new
    simp only [Bool.and_eq_true, decide_eq_true_eq] at left
    obtain ⟨⟨rfl, _⟩, _⟩ := left
    refine ⟨⟨rfl, rfl, rfl⟩, ?_, funext fun other => ?_⟩
    · rw [locations_written_written, written, written]
      refine map_modify_congr Location.unstaged ?_ a.locations i
      intro l
      rfl
    · rw [chain?_written, chain?_written]
      by_cases same : id = other <;> simp [broughtChain?, same]
  · cases left

/-- After two items have been placed where one key resolves, the locations of the atlas of any
    history are as after the second alone, and so is what is reachable. So is every other answer,
    unless the first item would leave its first stage to the second. If it does, everything else
    but the log is as after the first alone: what is obtained, in one step and in the end, what is
    available, and the verdict. -/
theorem last_placed_answers_but_for_first_stages (unlocks : Unlocks) (options : Options)
    (history : List Change) (key : Key) (x y : Option Item) :
    let a := ofHistory unlocks options history
    (a.find? key).isSome = true →
      ∃ first both last, a.place key x = .ok first ∧ first.place key y = .ok both ∧
        a.place key y = .ok last ∧
        both.locations = last.locations ∧ both.reachable = last.reachable ∧
        (a.leavesStage x y = false → both.AnswersLike last) ∧
        (a.leavesStage x y = true →
          both.obtained = first.obtained ∧ both.closure = first.closure ∧
            both.available = first.available ∧ both.verdict = first.verdict) := by
  intro a known
  have coherent : a.Coherent := coherent_ofHistory unlocks options history
  rw [coherent.isSome_find?] at known
  obtain ⟨i, resolved⟩ := Option.isSome_iff_exists.mp known
  have again : (a.written i x).position? key = some i := by rw [position?_written, resolved]
  have first := place_of_resolved resolved x
  have both := place_of_resolved again y
  have locations := a.locations_written_written i x y
  refine ⟨_, _, _, first, both, place_of_resolved resolved y, locations,
    reachable_of_locations locations, fun kept => ?_, fun left => ?_⟩
  · exact answersLike_written_written coherent kept i
  · have alike := stagedAlike_of_leavesStage left i
    have coherent_first := coherent_place coherent first
    have coherent_both := coherent_place coherent_first both
    have obtained := alike.obtained coherent_both coherent_first
    exact ⟨obtained, closure_of_obtained obtained, alike.available coherent_both coherent_first,
      alike.verdict coherent_both coherent_first⟩

/-- A copy of the keycard with stages of its own. -/
def makeOfCard (stages : List CapSet) : Option Item :=
  some (.progressive (.upgrade .scienceKeycard) (.ofStages stages))

/-- A room in the open with nothing in it. -/
def bareRoom : List Change := [.add ⟨.ofRoom 1 1, "", "", .free, none, false⟩]

/-- Two makes of the card, put into the room by way of a slot in it, begin with the same stage: the
    second answers as by itself. When they do not, the first decides what is obtained. -/
theorem bareRoom_filled_twice :
    let a := ofHistory ⟨⟨0⟩, ∅⟩ {} bareRoom
    let short := makeOfCard [{.cardD}]
    let long := makeOfCard [{.cardD}, {.cardC}]
    let other := makeOfCard [{.cardC}]
    (a.find? (.spot 1 1 8 8)).isSome = true ∧
      (a.leavesStage short long = false ∧
        ∃ first both last, a.place (.spot 1 1 8 8) short = .ok first ∧
          first.place (.spot 1 1 8 8) long = .ok both ∧ a.place (.spot 1 1 8 8) long = .ok last ∧
          both.AnswersLike last) ∧
      (a.leavesStage short other = true ∧
        ∃ first both, a.place (.spot 1 1 8 8) short = .ok first ∧
          first.place (.spot 1 1 8 8) other = .ok both ∧ both.obtained = first.obtained) := by
  intro a short long other
  have known : (a.find? (.spot 1 1 8 8)).isSome = true := by decide +kernel
  have kept : a.leavesStage short long = false := by decide +kernel
  have left : a.leavesStage short other = true := by decide +kernel
  obtain ⟨first, both, last, placed, again, alone, _, _, alike, _⟩ :=
    last_placed_answers_but_for_first_stages ⟨⟨0⟩, ∅⟩ {} bareRoom (.spot 1 1 8 8) short long known
  obtain ⟨first', both', _, placed', again', _, _, _, _, stays⟩ :=
    last_placed_answers_but_for_first_stages ⟨⟨0⟩, ∅⟩ {} bareRoom (.spot 1 1 8 8) short other known
  exact ⟨known, ⟨kept, first, both, last, placed, again, alone, alike kept⟩,
    left, first', both', placed', again', (stays left).1⟩

/-- The stage of a card that is no longer there can still open the first door, where the card that
    lies there would open the second. -/
theorem overwritten_card_still_opens :
    let a := ofHistory ⟨⟨0⟩, ∅⟩ {} bareRoom
    let last := a.after (.place (.ofRoom 1 1) (makeOfCard [{.cardC}]))
    let both := (a.after (.place (.ofRoom 1 1) (makeOfCard [{.cardD}]))).after
      (.place (.ofRoom 1 1) (makeOfCard [{.cardC}]))
    (a.find? (.ofRoom 1 1)).isSome = true ∧ both.locations = last.locations ∧
      both.obtained ∅ = {.cardD} ∧ last.obtained ∅ = {.cardC} ∧ ¬ both.AnswersLike last := by
  intro a last both
  have first : both.obtained ∅ = {.cardD} := by decide +kernel
  have second : last.obtained ∅ = {.cardC} := by decide +kernel
  refine ⟨by decide +kernel, by decide +kernel, first, second, fun alike => ?_⟩
  have same : both.obtained ∅ = last.obtained ∅ := by rw [alike.obtained]
  rw [first, second] at same
  exact absurd same (by decide)

end Atlas

end ItemLogic
