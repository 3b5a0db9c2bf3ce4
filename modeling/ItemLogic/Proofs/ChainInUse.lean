import ItemLogic.Proofs.ChainWalk

/-!
# Chains in use

A chain in use has been advanced and reset any number of times. Its cursor never passes the
last stage, and further pickups grant the stages from the cursor on, one for each pickup as
long as there are any: the last stage, which is granted over and over, adds nothing to itself.

Chains are copied to try pickups out. A store of copies counts them in the order in which they
were made, and each step in it advances or resets one copy or makes another. Whatever the
steps, a copy is where its own uses have led it.
-/

namespace ItemLogic.Chain

/-- What is done to a chain in place. -/
inductive Use
  | advance
  | reset
  deriving DecidableEq

/-- The chain after it has been used once. -/
def after (chain : Chain) : Use → Chain
  | .advance => chain.advance
  | .reset => chain.restarted

/-- The chain after some uses, one after the other. -/
def afterAll (chain : Chain) (uses : List Use) : Chain := uses.foldl after chain

/-- The stages from the cursor on. -/
def remaining (chain : Chain) : List CapSet := chain.stages.drop chain.cursor

/-- Whether the cursor is at a stage, or at the start where there are no stages. -/
def Within (chain : Chain) : Prop := chain.cursor ≤ chain.stages.length - 1

/-! ### The cursor -/

/-- A use moves the cursor and leaves the stages alone. -/
theorem stages_after (chain : Chain) (use : Use) : (chain.after use).stages = chain.stages := by
  cases use with
  | advance => exact chain.stages_advance
  | reset => rfl

/-- A chain keeps its stages, however it is used. -/
theorem stages_afterAll (chain : Chain) (uses : List Use) :
    (chain.afterAll uses).stages = chain.stages := by
  induction uses generalizing chain with
  | nil => rfl
  | cons use uses ih => exact (ih (chain.after use)).trans (chain.stages_after use)

/-- A new chain stands at its start. -/
theorem within_ofStages (stages : List CapSet) : (ofStages stages).Within := Nat.zero_le _

/-- Advancing stops at the last stage. -/
theorem Within.advance {chain : Chain} (within : chain.Within) : chain.advance.Within := by
  rw [Chain.advance]
  split
  · rename_i before
    exact Nat.le_sub_one_of_lt before
  · exact within

/-- No use takes the cursor past the last stage. -/
theorem Within.after {chain : Chain} (within : chain.Within) (use : Use) :
    (chain.after use).Within := by
  cases use with
  | advance => exact within.advance
  | reset => exact within_ofStages chain.stages

/-- No uses, however many, take the cursor past the last stage. -/
theorem Within.afterAll {chain : Chain} (within : chain.Within) (uses : List Use) :
    (chain.afterAll uses).Within := by
  induction uses generalizing chain with
  | nil => exact within
  | cons use uses ih => exact ih (within.after use)

/-! ### What is left to grant -/

/-- What a chain grants now is the first of the remaining stages, or nothing where there are none.
    -/
theorem currentGrant_eq_head? (chain : Chain) :
    chain.currentGrant = chain.remaining.head?.getD ∅ := by
  rw [currentGrant, remaining, List.head?_drop]

/-- As many stages remain as there are from the cursor to the end. -/
theorem length_remaining (chain : Chain) :
    chain.remaining.length = chain.stages.length - chain.cursor := List.length_drop

/-- Advancing leaves a chain at its last stage where it is, and otherwise takes the first of the
    remaining stages away. -/
theorem remaining_advance (chain : Chain) :
    (chain.remaining.length ≤ 1 ∧ chain.advance = chain) ∨
      chain.advance.remaining = chain.remaining.tail := by
  rw [Chain.advance]
  split
  · refine .inr ?_
    rw [remaining, remaining, List.tail_drop]
  · rename_i last
    refine .inl ⟨?_, rfl⟩
    rw [length_remaining]
    omega

/-- Pickups grant the remaining stages in turn, as many as there are pickups. -/
theorem unlockedBy_eq (chain : Chain) (pickups : Nat) :
    chain.unlockedBy pickups = CapSet.unionAll (chain.remaining.take pickups) := by
  induction pickups generalizing chain with
  | zero => rfl
  | succ pickups ih =>
    rw [unlockedBy_succ, ih, currentGrant_eq_head?]
    rcases chain.remaining_advance with ⟨short, stays⟩ | moves
    · -- The last stage is granted over and over, or there is none.
      rw [stays]
      match left : chain.remaining with
      | [] => exact CapSet.ext_members fun c => by simp
      | [last] =>
        refine CapSet.ext_members fun c => ?_
        cases pickups <;> simp
      | _ :: _ :: _ => simp [left] at short
    · rw [moves]
      match chain.remaining with
      | [] => exact CapSet.ext_members fun c => by simp
      | first :: rest => simp [CapSet.unionAll_cons]

example : (advance (.ofStages [{.cardD}, {.cardC}, {.cardB}])).unlockedBy 5 = {.cardC, .cardB} := by
  decide +kernel

/-- The stages that pickups grant are those from the cursor up to the end of the pickups, or up
    to the end of the chain. -/
theorem remaining_take (chain : Chain) (pickups : Nat) :
    chain.remaining.take pickups = chain.stages.extract chain.cursor
      (min (chain.cursor + pickups) chain.stages.length) := by
  rw [remaining, List.extract_eq_take_drop, List.take_eq_take_iff, List.length_drop]
  omega

/-- Once every remaining stage is granted, more pickups grant no more. -/
theorem unlockedBy_of_le {chain : Chain} {pickups : Nat}
    (enough : chain.stages.length - chain.cursor ≤ pickups) :
    chain.unlockedBy pickups = CapSet.unionAll chain.remaining := by
  rw [unlockedBy_eq, List.take_of_length_le (chain.length_remaining ▸ enough)]

/-! ### Copies -/

/-- One step in a store of copies. -/
inductive CopyStep
  /-- The copy of some number is used in place. -/
  | inPlace (number : Nat) (use : Use)
  /-- One more copy is made of the copy of some number. -/
  | copy (number : Nat)

/-- The copies after a step; there may be no copy of the number. -/
def afterStep (copies : List Chain) : CopyStep → List Chain
  | .inPlace number use => copies.modify number (after · use)
  | .copy number => copies ++ copies[number]?.toList

/-- The copies after some steps, one after the other. -/
def afterSteps (copies : List Chain) (steps : List CopyStep) : List Chain :=
  steps.foldl afterStep copies

/-- The use that a step makes of the copy of some number. -/
def CopyStep.useOf? (number : Nat) : CopyStep → Option Use
  | .inPlace other use => if other = number then some use else none
  | .copy _ => none

/-- The uses that steps make of the copy of some number. -/
def usesOf (number : Nat) (steps : List CopyStep) : List Use :=
  steps.filterMap (·.useOf? number)

/-- A step changes the copy that it uses and no other. -/
theorem getElem?_afterStep {copies : List Chain} {number : Nat} {chain : Chain}
    (held : copies[number]? = some chain) (step : CopyStep) :
    (afterStep copies step)[number]? = some (chain.afterAll (step.useOf? number).toList) := by
  cases step with
  | inPlace other use =>
    rw [afterStep, List.getElem?_modify, held, CopyStep.useOf?]
    by_cases same : other = number
    · simp [same, afterAll]
    · simp [same, afterAll]
  | copy other =>
    have present : number < copies.length := (List.getElem?_eq_some_iff.mp held).1
    rw [afterStep, List.getElem?_append_left present, held]
    rfl

/-- A copy is where its own uses have led it. -/
theorem getElem?_afterSteps {copies : List Chain} {number : Nat} {chain : Chain}
    (held : copies[number]? = some chain) (steps : List CopyStep) :
    (afterSteps copies steps)[number]? = some (chain.afterAll (usesOf number steps)) := by
  induction steps generalizing copies chain with
  | nil => exact held
  | cons step steps ih =>
    have rest := ih (getElem?_afterStep held step)
    rw [afterSteps, List.foldl_cons, ← afterSteps, rest, usesOf, usesOf, List.filterMap_cons]
    cases step.useOf? number <;> rfl

/-- A new copy is at first what it is a copy of. -/
theorem getElem?_copy (copies : List Chain) (number : Nat) :
    (afterStep copies (.copy number))[copies.length]? = copies[number]? := by
  rw [afterStep, List.getElem?_append_right (Nat.le_refl _), Nat.sub_self]
  cases copies[number]? <;> rfl

/-- Wherever uses have led a chain, its cursor is at a stage, and pickups grant the stages from
    the cursor on, up to the last of them. So what a sum of pickups grants can be cut anywhere,
    more pickups grant no less, and past the last stage they grant no more. A copy starts where
    the chain is, and a chain among copies is where its own uses lead it. -/
theorem used_chain_grants_slice (stages : List CapSet) (uses : List Use) :
    let chain := (ofStages stages).afterAll uses
    chain.cursor ≤ stages.length - 1 ∧
      (∀ n, chain.unlockedBy n = CapSet.unionAll
        (stages.extract chain.cursor (min (chain.cursor + n) stages.length))) ∧
      (∀ m n, chain.unlockedBy (m + n) =
        chain.unlockedBy m ∪ (advance^[m] chain).unlockedBy n) ∧
      (∀ m n, m ≤ n → chain.unlockedBy m ⊆ chain.unlockedBy n) ∧
      (∀ n, stages.length - chain.cursor ≤ n →
        chain.unlockedBy n = chain.unlockedBy (stages.length - chain.cursor)) ∧
      ∀ (copies : List Chain) (number : Nat), copies[number]? = some chain →
        (afterStep copies (.copy number))[copies.length]? = some chain ∧
          ∀ steps, (afterSteps copies steps)[number]? =
            some (chain.afterAll (usesOf number steps)) := by
  intro chain
  have same : chain.stages = stages := stages_afterAll (ofStages stages) uses
  have within : chain.Within := (within_ofStages stages).afterAll uses
  refine ⟨same ▸ within, fun n => ?_, chain.unlockedBy_add, fun _ _ => chain.unlockedBy_mono,
    fun n enough => ?_, fun copies number held => ⟨?_, getElem?_afterSteps held⟩⟩
  · rw [unlockedBy_eq, chain.remaining_take, same]
  · rw [← same] at enough ⊢
    rw [unlockedBy_of_le enough, unlockedBy_of_le (Nat.le_refl _)]
  · rw [getElem?_copy, held]

end ItemLogic.Chain
