import ItemLogic.Capability.Lemmas
import ItemLogic.Exploration
import Mathlib.Logic.Function.Iterate

/-!
# Ascents come to rest

An ascent repeats a step until a set is its own step. When the step keeps containment
and does not fall below its start, every round but the last gains a capability, so the
rounds allowed by the number of capabilities are enough. The set reached then is the
least one that contains the start and that the step does not leave.

The start matters as much as the step: from a set above its own step an ascent may go
round in circles, and nothing is said about that.
-/

namespace ItemLogic

/-- A step that keeps containment, together with a set that it does not fall below. -/
structure Rising (step : CapSet → CapSet) (held : CapSet) : Prop where
  mono : ∀ {smaller larger : CapSet}, smaller ⊆ larger → step smaller ⊆ step larger
  grows : held ⊆ step held

/-- The set at which an ascent ends. -/
def summit (step : CapSet → CapSet) (held : CapSet) : CapSet := (ascent step held).getLastD held

variable {step : CapSet → CapSet} {held : CapSet}

/-- A step that rises from a set rises from the next one. -/
theorem Rising.next (rising : Rising step held) : Rising step (step held) :=
  ⟨rising.mono, rising.mono rising.grows⟩

/-- A step that rises from a set rises from every later one. -/
theorem Rising.iterate (rising : Rising step held) (rounds : Nat) :
    Rising step (step^[rounds] held) := by
  induction rounds with
  | zero => exact rising
  | succ rounds ih =>
    rw [Function.iterate_succ_apply']
    exact ih.next

/-- The set in a given place of an ascent is the start under so many steps. -/
theorem ascentWithin_getElem? {fuel place : Nat} {reached : CapSet}
    (found : (ascentWithin step fuel held)[place]? = some reached) :
    reached = step^[place] held := by
  induction fuel generalizing held place with
  | zero =>
    cases place with
    | zero => exact (Option.some.inj found).symm
    | succ place => simp [ascentWithin] at found
  | succ fuel ih =>
    rw [ascentWithin] at found
    split at found
    · cases place with
      | zero => exact (Option.some.inj found).symm
      | succ place => simp at found
    · cases place with
      | zero => exact (Option.some.inj found).symm
      | succ place =>
        rw [Function.iterate_succ_apply]
        exact ih found

/-- Every set of an ascent lies inside any set that holds the start and that the step
    does not leave. -/
theorem subset_of_mem_ascentWithin {fuel : Nat} {bound reached : CapSet}
    (mono : ∀ {smaller larger : CapSet}, smaller ⊆ larger → step smaller ⊆ step larger)
    (above : held ⊆ bound) (closed : step bound ⊆ bound)
    (member : reached ∈ ascentWithin step fuel held) : reached ⊆ bound := by
  induction fuel generalizing held with
  | zero => exact List.mem_singleton.mp member ▸ above
  | succ fuel ih =>
    rw [ascentWithin] at member
    split at member
    · exact List.mem_singleton.mp member ▸ above
    · rcases List.mem_cons.mp member with rfl | later
      · exact above
      · exact ih (CapSet.subset_trans (mono above) closed) later

/-- An ascent ends at a set that is its own step, provided that the fuel makes up for
    the capabilities not yet held. A round that is not the last gains one of them. -/
theorem step_getLastD_ascentWithin {fuel : Nat} (rising : Rising step held)
    (enough : Capability.count ≤ held.size + fuel) (default : CapSet) :
    step ((ascentWithin step fuel held).getLastD default) =
      (ascentWithin step fuel held).getLastD default := by
  induction fuel generalizing held default with
  | zero =>
    by_cases rest : held = step held
    · exact rest.symm
    · have growth := CapSet.size_lt_of_subset_of_ne rising.grows rest
      have bound := (step held).size_le
      omega
  | succ fuel ih =>
    rw [ascentWithin]
    split
    · assumption
    · rename_i moving
      have growth := CapSet.size_lt_of_subset_of_ne rising.grows (Ne.symm moving)
      rw [List.getLastD_cons]
      exact ih rising.next (by omega) held

/-- An ascent never ends below its start. -/
theorem subset_getLastD_ascentWithin {fuel : Nat} (rising : Rising step held)
    (default : CapSet) : held ⊆ (ascentWithin step fuel held).getLastD default := by
  induction fuel generalizing held default with
  | zero => exact CapSet.subset_refl held
  | succ fuel ih =>
    rw [ascentWithin]
    split
    · exact CapSet.subset_refl held
    · rw [List.getLastD_cons]
      exact CapSet.subset_trans rising.grows (ih rising.next held)

/-- An ascent has its start at least. -/
theorem ascent_ne_nil (step : CapSet → CapSet) (held : CapSet) : ascent step held ≠ [] := by
  rw [ascent, Capability.count, ascentWithin]
  split <;> simp

/-- The summit stands in the last place of its ascent. -/
theorem ascent_getElem?_summit (step : CapSet → CapSet) (held : CapSet) :
    (ascent step held)[(ascent step held).length - 1]? = some (summit step held) := by
  rw [← List.getLast?_eq_getElem?, summit, List.getLastD_eq_getLast?,
    List.getLast?_eq_some_getLast (ascent_ne_nil step held)]
  rfl

/-- The summit is one of the sets of its ascent. -/
theorem summit_mem_ascent (step : CapSet → CapSet) (held : CapSet) :
    summit step held ∈ ascent step held :=
  List.mem_of_getElem? (ascent_getElem?_summit step held)

/-- The summit is its own step. -/
theorem step_summit (rising : Rising step held) : step (summit step held) = summit step held :=
  step_getLastD_ascentWithin rising (Nat.le_add_left _ _) held

/-- Nothing that is held at the start is lost on the way to the summit. -/
theorem subset_summit (rising : Rising step held) : held ⊆ summit step held :=
  subset_getLastD_ascentWithin rising held

/-- The summit lies inside every set that holds the start and that the step does not leave. -/
theorem summit_subset {bound : CapSet} (rising : Rising step held) (above : held ⊆ bound)
    (closed : step bound ⊆ bound) : summit step held ⊆ bound :=
  subset_of_mem_ascentWithin rising.mono above closed (summit_mem_ascent step held)

/-- As many steps as an ascent has sets lead to its summit. -/
theorem iterate_length_ascent (rising : Rising step held) :
    step^[(ascent step held).length] held = summit step held := by
  have last := ascentWithin_getElem? (ascent_getElem?_summit step held)
  have positive := List.length_pos_iff.mpr (ascent_ne_nil step held)
  obtain ⟨before, length⟩ := Nat.exists_eq_add_of_lt positive
  rw [Nat.zero_add] at length
  rw [length, Nat.add_sub_cancel] at last
  rw [length, Function.iterate_succ_apply', ← last]
  exact step_summit rising

end ItemLogic
