import ItemLogic.Proofs.Closure
import ItemLogic.Proofs.Coherence
import ItemLogic.Verdict
import Mathlib.Data.List.Pairwise

/-!
# Verdicts agree with the closure

The search for the goal stops at the first round in which the goal opens, and the search
for copies that share a room stops at the first copy met in a room where another was seen.
Both agree with conditions that mention no order. The goal opens in some round exactly
when it opens to the closure of nothing, because rounds stay inside the closure and the
last one obtains it. A clash is found exactly when two different locations of one room
hold copies of one item, wherever they stand in the list.

Which rule is reported when several are broken is decided by the order of the checks: the
gas mask comes first, then the shared rooms, then the goal.
-/

namespace ItemLogic

/-- The location holds a copy of an item found in stages. -/
def Location.HoldsCopy (l : Location) (id : ItemId) : Prop :=
  ∃ chain, l.item = some (.progressive id chain)

/-- The location holds a copy of an item of which a copy has been seen in the same room. -/
def Location.Repeats (l : Location) (seen : ItemId × Key) : Prop :=
  l.HoldsCopy seen.1 ∧ seen.2.toRoom = l.key.toRoom

/-- Two locations of one room hold copies of one item. -/
def Location.Clashes (l m : Location) : Prop :=
  l.key.toRoom = m.key.toRoom ∧ ∃ id, l.HoldsCopy id ∧ m.HoldsCopy id

instance : Std.Symm Location.Clashes where
  symm _ _ := fun ⟨room, id, first, second⟩ => ⟨room.symm, id, second, first⟩

instance : Std.Symm fun l m : Location => ¬ l.Clashes m where
  symm _ _ := fun apart clash => apart (Std.Symm.symm _ _ clash)

namespace Atlas

/-- Two different locations hold copies of one item in one room. -/
def SharesRoom (a : Atlas) : Prop :=
  ∃ l ∈ a.locations, ∃ m ∈ a.locations, l ≠ m ∧ l.Clashes m

/-- The rule about the gas mask: the Maw asks for the mask, or the mask lies within reach
    of a player who has come to the Maw. -/
def KeepsGasRule (a : Atlas) : Prop := a.options.gasMaw = true ∨ a.gasMaskInReach = true

variable {seen : List (ItemId × Key)} {l : Location} {rest : List Location}

/-- A location without a copy is passed over. -/
theorem clashAmong_cons_of_no_copy (none : ∀ id, ¬ l.HoldsCopy id) :
    clashAmong seen (l :: rest) = clashAmong seen rest := by
  rw [clashAmong]
  split
  · rename_i id chain holds
    exact absurd ⟨chain, holds⟩ (none id)
  · rfl

/-- A location that holds a copy is compared with what was seen and then joins it. Its own
    key was not seen before, so a match in its room is a clash. -/
theorem clashAmong_cons_of_copy {id : ItemId} {chain : Chain}
    (holds : l.item = some (.progressive id chain)) (fresh : ∀ entry ∈ seen, entry.2 ≠ l.key) :
    clashAmong seen (l :: rest) = none ↔
      (∀ entry ∈ seen, ¬ l.Repeats entry) ∧ clashAmong ((id, l.key) :: seen) rest = none := by
  have repeats (entry : ItemId × Key) :
      l.Repeats entry ↔ entry.1 = id ∧ entry.2.toRoom = l.key.toRoom := by
    simp [Location.Repeats, Location.HoldsCopy, holds, eq_comm]
  rw [clashAmong, holds]
  dsimp only
  split
  · rename_i other earlier found
    have present := List.mem_of_find?_eq_some found
    have matching := List.find?_some found
    have again : l.Repeats (other, earlier) := (repeats _).mpr (by simpa using matching)
    rw [if_neg (fresh _ present)]
    simp only [reduceCtorEq, false_iff, not_and]
    intro apart
    exact absurd again (apart _ present)
  · rename_i found
    have apart : ∀ entry ∈ seen, ¬ l.Repeats entry := by
      intro entry present again
      have missed := List.find?_eq_none.mp found entry present
      exact missed (by simpa using (repeats entry).mp again)
    exact (and_iff_right apart).symm

/-- The scan finds no clash exactly when no location repeats what was seen before and no two
    locations of the list clash. The keys of the list are new and different, so the scan
    never meets a location again that it has seen. -/
theorem clashAmong_eq_none_iff {locations : List Location}
    (nodup : (locations.map (·.key)).Nodup)
    (fresh : ∀ entry ∈ seen, ∀ l ∈ locations, entry.2 ≠ l.key) :
    clashAmong seen locations = none ↔
      (∀ l ∈ locations, ∀ entry ∈ seen, ¬ l.Repeats entry) ∧
        locations.Pairwise fun l m => ¬ l.Clashes m := by
  induction locations generalizing seen with
  | nil => simp [clashAmong]
  | cons l rest ih =>
    obtain ⟨new, later⟩ := List.nodup_cons.mp nodup
    have freshRest : ∀ entry ∈ seen, ∀ m ∈ rest, entry.2 ≠ m.key := fun entry member m inRest =>
      fresh entry member m (List.mem_cons_of_mem l inRest)
    rw [List.forall_mem_cons, List.pairwise_cons]
    by_cases copy : ∃ id, l.HoldsCopy id
    · obtain ⟨id, chain, holds⟩ := copy
      have freshHead : ∀ entry ∈ seen, entry.2 ≠ l.key := fun entry member =>
        fresh entry member l List.mem_cons_self
      have different : ∀ m ∈ rest, l.key ≠ m.key := fun m inRest same =>
        new (List.mem_map.mpr ⟨m, inRest, same.symm⟩)
      have freshBoth : ∀ entry ∈ (id, l.key) :: seen, ∀ m ∈ rest, entry.2 ≠ m.key :=
        List.forall_mem_cons.mpr ⟨different, freshRest⟩
      have clashes (m : Location) : l.Clashes m ↔ m.Repeats (id, l.key) := by
        simp [Location.Clashes, Location.Repeats, Location.HoldsCopy, holds, and_comm]
      rw [clashAmong_cons_of_copy holds freshHead, ih later freshBoth]
      simp only [List.forall_mem_cons, clashes, forall_and]
      tauto
    · have none : ∀ id, ¬ l.HoldsCopy id := fun id holds => copy ⟨id, holds⟩
      rw [clashAmong_cons_of_no_copy none, ih later freshRest]
      simp [Location.Repeats, Location.Clashes, none]

/-- In a coherent atlas a clash is found exactly when two locations share a room. -/
theorem clash?_isSome_iff {a : Atlas} (coherent : a.Coherent) :
    a.clash?.isSome = true ↔ a.SharesRoom := by
  have nodup : a.locations.Nodup := coherent.nodup.of_map _
  have scan : a.clash? = none ↔ a.locations.Pairwise fun l m => ¬ l.Clashes m := by
    rw [clash?, clashAmong_eq_none_iff coherent.nodup (by simp)]
    simp
  rw [Option.isSome_iff_ne_none, ne_eq, scan]
  constructor
  · intro clashing
    by_contra apart
    refine clashing (nodup.pairwise_of_forall_ne ?_)
    intro l inside m other different clash
    exact apart ⟨l, inside, m, other, different, clash⟩
  · rintro ⟨l, inside, m, other, different, clash⟩ apart
    exact apart.forall inside other different clash

/-- A fresh player opens the goal in some round exactly when the closure opens it. -/
theorem reachesGoal_iff (a : Atlas) :
    a.reachesGoal = true ↔ a.goal.opens (a.closure ∅) = true := by
  rw [reachesGoal, freshAscent, List.any_eq_true]
  constructor
  · rintro ⟨held, member, opened⟩
    have inside : held ⊆ a.closure ∅ :=
      subset_of_mem_ascentWithin a.obtained_mono (CapSet.empty_subset _)
        (a.closure_closedAbove ∅).closed member
    have obtained := a.obtained_mono inside
    rw [obtained_closure_empty] at obtained
    exact Gate.opens_mono obtained opened
  · intro opened
    refine ⟨a.closure ∅, ?_, ?_⟩
    · rw [closure_empty_eq_summit]
      exact summit_mem_ascent a.obtained ∅
    · rwa [obtained_closure_empty]

/-- The rule about the Maw looks at a location in the same way in atlases with the same unlocks
    that are both inverted or both not. -/
theorem inReachOfMaw_congr {a b : Atlas} (unlocks : a.unlocks = b.unlocks)
    (inverted : a.options.inverted = b.options.inverted) : a.inReachOfMaw = b.inReachOfMaw := by
  funext l
  rw [inReachOfMaw, inReachOfMaw, levelsToAvoid, levelsToAvoid, mawRequirements, mawRequirements,
    inverted, unlocks]

/-- Atlases that obtain the same have the same verdict where they have the same goal and keep to
    the same rules. -/
theorem verdict_of_obtained {a b : Atlas} (obtained : a.obtained = b.obtained)
    (goal : a.goal = b.goal) (gasMaw : a.options.gasMaw = b.options.gasMaw)
    (gasMask : a.gasMaskInReach = b.gasMaskInReach) (clash : a.clash?.isSome = b.clash?.isSome) :
    a.verdict = b.verdict := by
  have reaches : a.reachesGoal = b.reachesGoal := by
    rw [reachesGoal, reachesGoal, freshAscent, freshAscent, obtained, goal]
  rw [verdict, verdict, gasMaw, gasMask, clash, reaches]

/-- The verdict on an atlas of any history, from the rule about the gas mask, the pairs of
    locations in one room, and the closure of nothing. -/
theorem verdict_exact (unlocks : Unlocks) (options : Options) (history : List Change) :
    let a := ofHistory unlocks options history
    (a.verdict = .completable ↔
        a.KeepsGasRule ∧ ¬ a.SharesRoom ∧ a.goal.opens (a.closure ∅) = true) ∧
      (a.verdict = .stuck ↔
        a.KeepsGasRule ∧ ¬ a.SharesRoom ∧ a.goal.opens (a.closure ∅) = false) ∧
      (a.verdict = .sharedRoom ↔ a.KeepsGasRule ∧ a.SharesRoom) ∧
      (a.verdict = .gasMaskOutOfReach ↔ ¬ a.KeepsGasRule) := by
  intro a
  have clashes : a.clash?.isSome = true ↔ a.SharesRoom :=
    clash?_isSome_iff (coherent_ofHistory unlocks options history)
  have goal := a.reachesGoal_iff
  rw [verdict]
  by_cases kept : a.KeepsGasRule
  · have passed : ¬ (!a.options.gasMaw && !a.gasMaskInReach) = true := by
      rcases kept with asked | inReach
      · simp [asked]
      · simp [inReach]
    rw [if_neg passed]
    by_cases shared : a.SharesRoom
    · rw [if_pos (clashes.mpr shared)]
      simp [kept, shared]
    · rw [if_neg (shared ∘ clashes.mp)]
      by_cases opened : a.goal.opens (a.closure ∅) = true
      · rw [if_pos (goal.mpr opened)]
        simp [kept, shared, opened]
      · rw [if_neg (opened ∘ goal.mp)]
        simp [kept, shared, opened]
  · have broken : (!a.options.gasMaw && !a.gasMaskInReach) = true := by
      simpa [KeepsGasRule] using kept
    rw [if_pos broken]
    simp [kept]

end Atlas

end ItemLogic
