import ItemLogic.Capability.Lemmas
import ItemLogic.Chain
import Mathlib.Logic.Function.Iterate

/-!
# Walking upgrade chains

A number of pickups walks a copy of the chain, one stage a pickup, and holds on the
last stage. A walk can be cut anywhere: what a sum of pickups grants is what the
first of them grant together with what the others grant from where the cursor then
stands. Hence more pickups never grant less, and whatever a walk grants belongs to
some stage of the chain, wherever its cursor started.
-/

namespace ItemLogic.Chain

/-- No pickups unlock nothing. -/
@[simp] theorem unlockedBy_zero (chain : Chain) : chain.unlockedBy 0 = ∅ := rfl

/-- Advancing keeps the stages. -/
@[simp] theorem stages_advance (chain : Chain) : chain.advance.stages = chain.stages := by
  rw [advance]
  split <;> rfl

/-- What is in hand stays in hand and changes nothing about the walk. -/
theorem collect_eq_union (pickups : Nat) (chain : Chain) (inHand : CapSet) :
    collect pickups chain inHand = inHand ∪ chain.unlockedBy pickups := by
  induction pickups generalizing chain inHand with
  | zero => exact CapSet.ext_members fun c => by simp [collect]
  | succ pickups ih =>
    have rest : chain.unlockedBy (pickups + 1) =
        (∅ ∪ chain.currentGrant) ∪ chain.advance.unlockedBy pickups :=
      ih chain.advance (∅ ∪ chain.currentGrant)
    rw [collect, ih, rest]
    exact CapSet.ext_members fun c => by simp [or_assoc]

/-- The first pickup grants the current stage, and the others walk on from the next. -/
theorem unlockedBy_succ (chain : Chain) (pickups : Nat) :
    chain.unlockedBy (pickups + 1) = chain.currentGrant ∪ chain.advance.unlockedBy pickups := by
  rw [unlockedBy, collect, collect_eq_union]
  exact CapSet.ext_members fun c => by simp

/-- A walk can be cut anywhere. -/
theorem unlockedBy_add (chain : Chain) (first more : Nat) :
    chain.unlockedBy (first + more) =
      chain.unlockedBy first ∪ (advance^[first] chain).unlockedBy more := by
  induction first generalizing chain with
  | zero => exact CapSet.ext_members fun c => by simp
  | succ first ih =>
    rw [Nat.add_right_comm, unlockedBy_succ, unlockedBy_succ, ih, Function.iterate_succ_apply]
    exact CapSet.ext_members fun c => by simp [or_assoc]

/-- More pickups never grant less. -/
theorem unlockedBy_mono (chain : Chain) {fewer more : Nat} (bounded : fewer ≤ more) :
    chain.unlockedBy fewer ⊆ chain.unlockedBy more := by
  obtain ⟨extra, rfl⟩ := Nat.exists_eq_add_of_le bounded
  rw [unlockedBy_add]
  exact CapSet.subset_union_left _ _

/-- The current grant is a stage of the chain, unless it is nothing. -/
theorem exists_stage_of_mem_currentGrant {chain : Chain} {c : Capability}
    (granted : c ∈ chain.currentGrant) : ∃ stage ∈ chain.stages, c ∈ stage := by
  rw [currentGrant] at granted
  cases found : chain.stages[chain.cursor]? with
  | none => simp [found] at granted
  | some stage => exact ⟨stage, List.mem_of_getElem? found, by simpa [found] using granted⟩

/-- Whatever a walk grants belongs to some stage. -/
theorem exists_stage_of_mem_unlockedBy {chain : Chain} {pickups : Nat} {c : Capability}
    (granted : c ∈ chain.unlockedBy pickups) : ∃ stage ∈ chain.stages, c ∈ stage := by
  induction pickups generalizing chain with
  | zero => simp at granted
  | succ pickups ih =>
    rw [unlockedBy_succ, CapSet.mem_union] at granted
    rcases granted with now | later
    · exact exists_stage_of_mem_currentGrant now
    · simpa using ih later

end ItemLogic.Chain
