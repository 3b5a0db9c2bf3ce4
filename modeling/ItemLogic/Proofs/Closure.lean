import ItemLogic.Proofs.Ascent
import ItemLogic.Proofs.Grants

/-!
# Closures are least

The closure of an initial set is the least set that holds it and that is not left by
collecting whatever it opens. The rounds that compute it keep hold of the initial set
throughout, and each lies inside every such set, so the last one does as well.

It follows that closing is a closure operator. Nothing is assumed of the atlas: copies
may outnumber the stages of their chain, and the stages may come in any order.
-/

namespace ItemLogic.Atlas

/-- A set that holds an initial one and that is not left by collecting what it opens. -/
structure ClosedAbove (a : Atlas) (initial s : CapSet) : Prop where
  holds : initial ⊆ s
  closed : a.obtained s ⊆ s

/-- A step that keeps hold of the initial set rises from it. -/
theorem rising_step (a : Atlas) (initial : CapSet) : Rising (a.step initial) initial :=
  ⟨a.step_mono initial, CapSet.subset_union_left _ _⟩

/-- A closure holds its initial set and what it obtains itself, and nothing else. -/
theorem closure_eq_union (a : Atlas) (initial : CapSet) :
    a.closure initial = initial ∪ a.obtained (a.closure initial) :=
  (step_summit (a.rising_step initial)).symm

/-- The closure holds the initial set, and collecting what it opens does not leave it. -/
theorem closure_closedAbove (a : Atlas) (initial : CapSet) :
    a.ClosedAbove initial (a.closure initial) where
  holds := subset_summit (a.rising_step initial)
  closed := by
    have obtained := CapSet.subset_union_right initial (a.obtained (a.closure initial))
    rwa [← closure_eq_union] at obtained

/-- Every other closed set above the initial one is above the closure. -/
theorem closure_subset {a : Atlas} {initial s : CapSet} (above : a.ClosedAbove initial s) :
    a.closure initial ⊆ s :=
  summit_subset (a.rising_step initial) above.holds
    (CapSet.union_subset_iff.mpr ⟨above.holds, above.closed⟩)

/-- With more at the start no less is reached in the end. -/
theorem closure_mono (a : Atlas) {initial more : CapSet} (contained : initial ⊆ more) :
    a.closure initial ⊆ a.closure more := by
  have above := a.closure_closedAbove more
  exact closure_subset ⟨CapSet.subset_trans contained above.holds, above.closed⟩

/-- Whoever starts with a closure ends with it. -/
theorem closure_closure (a : Atlas) (initial : CapSet) :
    a.closure (a.closure initial) = a.closure initial := by
  have closed := (a.closure_closedAbove initial).closed
  have inside : a.closure (a.closure initial) ⊆ a.closure initial :=
    closure_subset ⟨CapSet.subset_refl _, closed⟩
  exact CapSet.subset_antisymm inside (a.closure_closedAbove _).holds

/-- The closure is the least closed set above an initial one, whatever the atlas holds,
    and is made up of the initial set and what it obtains. Hence closing is extensive,
    keeps containment, and changes nothing the second time. -/
theorem closure_least_and_operator (a : Atlas) (initial : CapSet) :
    a.ClosedAbove initial (a.closure initial) ∧
      a.closure initial = initial ∪ a.obtained (a.closure initial) ∧
      (∀ s, a.ClosedAbove initial s → a.closure initial ⊆ s) ∧
      (∀ more, initial ⊆ more → a.closure initial ⊆ a.closure more) ∧
      a.closure (a.closure initial) = a.closure initial := by
  refine ⟨a.closure_closedAbove initial, a.closure_eq_union initial, ?_, ?_, ?_⟩
  · intro s above
    exact closure_subset above
  · intro more contained
    exact a.closure_mono contained
  · exact a.closure_closure initial

/-- Where nothing is held at the start, a step is what is obtained and no more. -/
theorem step_empty (a : Atlas) : a.step ∅ = a.obtained := by
  funext held
  exact CapSet.ext_members fun c => by simp [step]

/-- What a fresh player obtains rises from nothing. -/
theorem rising_obtained (a : Atlas) : Rising a.obtained ∅ :=
  ⟨a.obtained_mono, CapSet.empty_subset _⟩

/-- A fresh player, who gives back the held set for the obtained one in every round, ends
    at the closure of nothing. -/
theorem closure_empty_eq_summit (a : Atlas) : a.closure ∅ = summit a.obtained ∅ := by
  rw [closure, step_empty, summit]

/-- What a fresh player ends with grants exactly itself. -/
theorem obtained_closure_empty (a : Atlas) : a.obtained (a.closure ∅) = a.closure ∅ := by
  rw [closure_empty_eq_summit]
  exact step_summit a.rising_obtained

end ItemLogic.Atlas
