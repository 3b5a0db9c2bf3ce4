import ItemLogic.Proofs.Alike
import ItemLogic.Proofs.FilledWorld
import Mathlib.Data.List.Forall2

/-!
# The order of adding

An atlas lists its locations in the order in which they were added, and everything that it lists
comes out in that order. What it says does not depend on it. The locations that a held set opens
are the same in another order; copies are counted, whatever stands between them; and a copy leads
up the same chain whichever copy came first, as long as all copies of an item have the same
stages. So the sets are equal, and a wave of one atlas is a wave of the other with its keys in
another order. The verdict is not among the answers below: the rule about the gas mask looks at
the first mask in the list.
-/

namespace ItemLogic

/-- Lists that are related one by one stay so without what a test drops at their beginning. -/
theorem forall₂_dropWhile {α : Type} {related : α → α → Prop} {test : α → Bool} {l m : List α}
    (same : ∀ a b, related a b → test a = test b) (paired : List.Forall₂ related l m) :
    List.Forall₂ related (l.dropWhile test) (m.dropWhile test) := by
  induction paired with
  | nil => exact .nil
  | @cons a b l m first rest ih =>
    rw [List.dropWhile_cons, List.dropWhile_cons, same a b first]
    split
    · exact ih
    · exact .cons first rest

namespace Atlas

/-- The atlases hold the same locations, in whatever order, and the same chains for the copies. -/
structure Reordered (a b : Atlas) : Prop where
  locations : a.locations.Perm b.locations
  shared : ∀ l ∈ a.locations, ∀ id chain, l.item = some (.progressive id chain) →
    (a.chain? id).getD chain = (b.chain? id).getD chain

/-- What a list of locations grants does not depend on its order. -/
theorem granted_of_perm (a : Atlas) {ls ms : List Location} (perm : ls.Perm ms) :
    a.granted ls = a.granted ms := by
  have grants : a.grantAmong ls = a.grantAmong ms := by
    funext item
    cases item with
    | simple id unlocks => rfl
    | progressive id chain => rw [grantAmong, grantAmong, copies, copies, perm.countP_eq]
  refine CapSet.ext_members fun c => ?_
  rw [mem_granted, mem_granted, grants]
  simp only [perm.mem_iff]

/-- Two locations of one room hold copies of one item in whatever order locations are listed. -/
theorem sharesRoom_of_perm {a b : Atlas} (perm : a.locations.Perm b.locations) :
    a.SharesRoom ↔ b.SharesRoom := by
  simp only [SharesRoom, perm.mem_iff]

namespace Reordered

variable {a b : Atlas} (reordered : a.Reordered b)

include reordered

/-- The same locations in another order grant the same in the other atlas. -/
theorem granted {ls ms : List Location} (perm : ls.Perm ms)
    (within : ∀ l ∈ ls, l ∈ a.locations) : a.granted ls = b.granted ms := by
  have shared : a.granted ls = b.granted ls :=
    granted_of_shared fun l member => reordered.shared l (within l member)
  rw [shared, b.granted_of_perm perm]

/-- The same is obtained from a held set. -/
theorem obtained : a.obtained = b.obtained := by
  funext held
  exact reordered.granted (reordered.locations.filter _) fun _ => List.mem_of_mem_filter

/-- The same is available from what is picked up. -/
theorem available : a.available = b.available :=
  reordered.granted (reordered.locations.filter _) fun _ => List.mem_of_mem_filter

/-- The same keys of progression are in reach. -/
theorem keys_reachableProgression (held : CapSet) :
    ((a.reachableProgression held).map (·.key)).Perm
      ((b.reachableProgression held).map (·.key)) :=
  ((reordered.locations.filter _).filter _).map _

/-- A round has the same wave, up to the order of the keys in it. -/
theorem wave (before : Option CapSet) (held : CapSet) :
    (a.wave before held).Perm (b.wave before held) := by
  have known : ((before.elim [] a.reachableProgression).map (·.key)).Perm
      ((before.elim [] b.reachableProgression).map (·.key)) := by
    cases before with
    | none => exact .refl _
    | some earlier => exact reordered.keys_reachableProgression earlier
  have new : (fun key => !((before.elim [] a.reachableProgression).map (·.key)).contains key) =
      fun key => !((before.elim [] b.reachableProgression).map (·.key)).contains key := by
    funext key
    rw [known.contains_eq]
  rw [Atlas.wave, Atlas.wave, new]
  exact (reordered.keys_reachableProgression held).filter _

/-- Round by round the waves are the same, each up to the order of its keys. -/
theorem wavesAlong (before : Option CapSet) (sets : List CapSet) :
    List.Forall₂ List.Perm (a.wavesAlong before sets) (b.wavesAlong before sets) := by
  induction sets generalizing before with
  | nil => exact .nil
  | cons held rest ih => exact .cons (reordered.wave before held) (ih (some held))

/-- The waves are the same, each up to the order of its keys. Empty waves correspond to empty
    ones, so as many are left out at the end. -/
theorem waves : List.Forall₂ List.Perm a.waves b.waves := by
  have rounds : List.Forall₂ List.Perm a.rounds b.rounds := by
    rw [Atlas.rounds, Atlas.rounds, freshAscent, freshAscent, reordered.obtained]
    exact reordered.wavesAlong none _
  exact List.rel_reverse (forall₂_dropWhile (fun _ _ => List.Perm.isEmpty_eq)
    (List.rel_reverse rounds))

end Reordered

/-! ### Atlases that are built by adding -/

/-- The atlas that locations make, added one after the other to an empty one with a goal. -/
def ofLocations (unlocks : Unlocks) (options : Options) (goal : Gate) (ls : List Location) :
    Except Fault Atlas :=
  ls.foldlM Atlas.add ((empty unlocks options).withGoal goal)

/-- The changes that make the atlas of some locations. -/
def adding (goal : Gate) (ls : List Location) : List Change := .setGoal goal :: ls.map .add

variable {unlocks : Unlocks} {options : Options} {goal : Gate} {ls ms : List Location} {a : Atlas}

/-- Locations that are all added come behind those that are there. -/
theorem locations_of_foldlM_add {b : Atlas} (built : ls.foldlM Atlas.add a = .ok b) :
    b.locations = a.locations ++ ls := by
  induction ls generalizing a with
  | nil => rw [← Except.ok.inj built, List.append_nil]
  | cons l rest ih =>
    rw [List.foldlM_cons] at built
    cases added : a.add l with
    | error fault =>
      rw [added] at built
      cases built
    | ok next =>
      rw [added] at built
      have behind : next.locations = a.locations ++ [l] := by
        rw [add] at added
        split at added
        · cases added
        · cases added
          rfl
      rw [ih built, behind, List.append_assoc, List.singleton_append]

/-- Where all locations are added, the atlas lists them and is that of a history. -/
theorem locations_and_history_of_built (built : ofLocations unlocks options goal ls = .ok a) :
    a.locations = ls ∧ a = ofHistory unlocks options (adding goal ls) :=
  ⟨locations_of_foldlM_add built, World.eq_replay_of_foldlM_add built⟩

/-- Whether copies agree on their stages does not depend on the order in which they come. -/
theorem carriesOneStageList_adding (goal : Gate) (perm : ls.Perm ms) :
    carriesOneStageList (adding goal ms) = carriesOneStageList (ls.map .add) := by
  have brought : (broughtBy (adding goal ms)).Perm (broughtBy (ls.map .add)) :=
    (perm.symm.map Change.add).filterMap Change.item?
  rw [carriesOneStageList, carriesOneStageList, brought.all_eq]
  simp only [brought.all_eq]

/-- Locations whose copies agree on their stages, added in another order, make an atlas as well,
    and the two answer alike. They obtain the same from every held set and have the same closures,
    the player has the same in both, their waves correspond, each with the same keys, and copies
    of one item share a room in both or in neither. -/
theorem order_of_adding_changes_no_answer (unlocks : Unlocks) (options : Options) (goal : Gate)
    {ls ms : List Location} (reordered : ls.Perm ms)
    (agreed : carriesOneStageList (ls.map .add) = true) {a : Atlas}
    (built : ofLocations unlocks options goal ls = .ok a) :
    ∃ b, ofLocations unlocks options goal ms = .ok b ∧
      a.obtained = b.obtained ∧ a.closure = b.closure ∧ a.available = b.available ∧
      List.Forall₂ List.Perm a.waves b.waves ∧ a.clash?.isSome = b.clash?.isSome := by
  obtain ⟨listed, history⟩ := locations_and_history_of_built built
  have coherent : a.Coherent := history ▸ coherent_ofHistory unlocks options _
  have distinct : (((empty unlocks options).withGoal goal).keys ++ ms.map (·.key)).Nodup := by
    have once := coherent.nodup
    rw [keys, listed] at once
    exact (reordered.map _).nodup_iff.mp once
  have start : ((empty unlocks options).withGoal goal).Coherent :=
    coherent_after (coherent_empty unlocks options) (.setGoal goal)
  obtain ⟨b, built', _⟩ := start.exists_foldlM_add distinct
  obtain ⟨listed', history'⟩ := locations_and_history_of_built built'
  have coherent' : b.Coherent := history' ▸ coherent_ofHistory unlocks options _
  have uniform : a.Uniform := history ▸ uniform_ofHistory unlocks options
    ((carriesOneStageList_adding goal (.refl ls)).trans agreed)
  have uniform' : b.Uniform := history' ▸ uniform_ofHistory unlocks options
    ((carriesOneStageList_adding goal reordered).trans agreed)
  have perm : a.locations.Perm b.locations := by rwa [listed, listed']
  have related : a.Reordered b := ⟨perm, fun l member id chain holds => by
    rw [shared_eq_ofStages coherent uniform member holds,
      shared_eq_ofStages coherent' uniform' (perm.mem_iff.mp member) holds]⟩
  refine ⟨b, built', related.obtained, closure_of_obtained related.obtained, related.available,
    related.waves, ?_⟩
  rw [Bool.eq_iff_iff, clash?_isSome_iff coherent, clash?_isSome_iff coherent',
    sharesRoom_of_perm perm]

/-- Two copies of the keycard in one room, one of them behind what the first opens, a third that
    has been turned to its last stage, and a mask that was picked up. -/
def cardTrail : List Location :=
  [⟨.spot 1 1 0 0, "Lake Desolation", "in the open", .free, some Catalog.stagedKeycard, false⟩,
   ⟨.spot 1 2 0 0, "Lake Desolation", "behind the second door", .needs {.cardC},
      some (.simple (.relic .waterMask) {.swimming}), true⟩,
   ⟨.ofRoom 2 1, "Library", "behind the first door", .needs {.cardD},
      some (.progressive (.upgrade .scienceKeycard)
        ⟨[{.cardD}, {.cardD, .cardC}, {.cardD, .cardC, .cardB},
          {.cardD, .cardC, .cardB, .cardA}], 3⟩), false⟩,
   ⟨.spot 1 1 8 8, "Lake Desolation", "above it", .needs {.cardD}, some Catalog.stagedKeycard,
      false⟩]

/-- The trail from its end is explored as it is from its beginning. -/
theorem cardTrail_reversed :
    cardTrail.Perm cardTrail.reverse ∧ carriesOneStageList (cardTrail.map .add) = true ∧
      (∃ a, ofLocations ⟨⟨0⟩, ∅⟩ {} .free cardTrail = .ok a ∧
        ∃ b, ofLocations ⟨⟨0⟩, ∅⟩ {} .free cardTrail.reverse = .ok b ∧
          a.closure = b.closure ∧ a.available = b.available ∧
          List.Forall₂ List.Perm a.waves b.waves ∧ a.clash?.isSome = b.clash?.isSome) ∧
      (ofLocations ⟨⟨0⟩, ∅⟩ {} .free cardTrail).toOption.map (·.waves) =
        some [[.spot 1 1 0 0], [.ofRoom 2 1, .spot 1 1 8 8], [.spot 1 2 0 0]] ∧
      (ofLocations ⟨⟨0⟩, ∅⟩ {} .free cardTrail.reverse).toOption.map (·.waves) =
        some [[.spot 1 1 0 0], [.spot 1 1 8 8, .ofRoom 2 1], [.spot 1 2 0 0]] := by
  have reordered : cardTrail.Perm cardTrail.reverse := (List.reverse_perm cardTrail).symm
  have agreed : carriesOneStageList (cardTrail.map .add) = true := by decide +kernel
  have accepted : (ofLocations ⟨⟨0⟩, ∅⟩ {} .free cardTrail).toOption.isSome = true := by
    decide +kernel
  refine ⟨reordered, agreed, ?_, by decide +kernel, by decide +kernel⟩
  cases built : ofLocations ⟨⟨0⟩, ∅⟩ {} .free cardTrail with
  | error fault =>
    rw [built] at accepted
    cases accepted
  | ok a =>
    obtain ⟨b, built', _, closure, available, waves, clash⟩ :=
      order_of_adding_changes_no_answer ⟨⟨0⟩, ∅⟩ {} .free reordered agreed built
    exact ⟨a, rfl, b, built', closure, available, waves, clash⟩

/-- Stages have to agree: a copy of another make leads up its own chain when it comes first. -/
example :
    let copy (key : Key) (stages : List CapSet) : Location :=
      ⟨key, "", "", .free, some (.progressive (.upgrade .scienceKeycard) (.ofStages stages)), false⟩
    let first := copy (.spot 1 1 0 0) [{.cardD}]
    let second := copy (.spot 1 2 0 0) [{.cardC}]
    (ofLocations ⟨⟨0⟩, ∅⟩ {} .free [first, second]).toOption.map (·.obtained ∅) = some {.cardD} ∧
      (ofLocations ⟨⟨0⟩, ∅⟩ {} .free [second, first]).toOption.map (·.obtained ∅) =
        some {.cardC} := by
  decide +kernel

end Atlas

end ItemLogic
