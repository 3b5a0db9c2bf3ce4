import ItemLogic.Capability.Set

/-!
# Upgrade chains

The stages of an item that is found several times, with a cursor at the stage
that the next pickup grants. The cursor stops at the last stage, so any number of
pickups is defined.
-/

namespace ItemLogic

/-- Stages in order and the position of the next grant. -/
structure Chain where
  stages : List CapSet
  cursor : Nat
  deriving DecidableEq

namespace Chain

/-- The chain of some stages, before any pickup. -/
def ofStages (stages : List CapSet) : Chain := ⟨stages, 0⟩

/-- What the next pickup grants; nothing when there are no stages. -/
def currentGrant (chain : Chain) : CapSet := (chain.stages[chain.cursor]?).getD ∅

/-- The chain after a pickup: the cursor moves on unless it is at the last stage. -/
def advance (chain : Chain) : Chain :=
  if chain.cursor + 1 < chain.stages.length then { chain with cursor := chain.cursor + 1 }
  else chain

/-- The chain with its cursor back at the first stage. -/
def restarted (chain : Chain) : Chain := ofStages chain.stages

/-- Whether the cursor has no stage to move on to. -/
def isAtFinalStage (chain : Chain) : Bool := chain.stages.length ≤ chain.cursor + 1

/-- What the next pickups grant, together with what is in hand. -/
def collect : Nat → Chain → CapSet → CapSet
  | 0, _, inHand => inHand
  | pickups + 1, chain, inHand => collect pickups chain.advance (inHand ∪ chain.currentGrant)

/-- What a number of further pickups grants. -/
def unlockedBy (chain : Chain) (pickups : Nat) : CapSet := collect pickups chain ∅

end Chain

end ItemLogic
