import ItemLogic.CommandLine.Run
import ItemLogic.Proofs.Placing
import ItemLogic.Proofs.WhatMatters

/-!
# Atlases that answer alike

Two atlases may have come about in different ways and still hold the same locations. They
may then differ only in their chains: in the order of the chains, and in chains of items that
lie nowhere any more. If what they say of the copies that lie somewhere is the same, nothing
that is asked about exploration tells the two apart.

That is so whenever both are coherent and in both the copies of each item agree on their
stages: every chain stands at its first stage, and the stages are those of the copies.
-/

namespace ItemLogic.Atlas

/-- The atlases hold the same locations, and the same chains for what lies there. -/
structure Alike (a b : Atlas) : Prop where
  emptied : a.emptied = b.emptied
  locations : a.locations = b.locations
  shared : ∀ l ∈ a.locations, ∀ id chain, l.item = some (.progressive id chain) →
    (a.chain? id).getD chain = (b.chain? id).getD chain

variable {a b : Atlas}

/-- A key resolves to the same location. -/
theorem Alike.find? (alike : a.Alike b) : a.find? = b.find? := by
  funext key
  rw [Atlas.find?, Atlas.find?, position?_of_emptied alike.emptied, alike.locations]

/-- The same locations, with the same chains for them, are the same to exploration. -/
theorem Alike.playsLike (alike : a.Alike b) : a.PlaysLike b where
  goal := (congrArg Atlas.goal alike.emptied :)
  unlocks := (congrArg Atlas.unlocks alike.emptied :)
  inverted := (congrArg (·.options.inverted) alike.emptied :)
  gasMaw := (congrArg (·.options.gasMaw) alike.emptied :)
  matters := by rw [alike.locations]
  shared := alike.shared

/-- What is printed of the analysis is the same. -/
theorem Alike.analysisLines (alike : a.Alike b) :
    CommandLine.analysisLines a = CommandLine.analysisLines b := by
  have plays := alike.playsLike
  rw [CommandLine.analysisLines, CommandLine.analysisLines, CommandLine.waveLines,
    CommandLine.waveLines, plays.waves, alike.find?, plays.verdict, plays.closure]

/-- The chain that a copy shares stands at the first of the stages that the copy has. -/
theorem shared_eq_ofStages (coherent : a.Coherent) (uniform : a.Uniform) {l : Location}
    (member : l ∈ a.locations) {id : ItemId} {chain : Chain}
    (holds : l.item = some (.progressive id chain)) :
    (a.chain? id).getD chain = .ofStages chain.stages := by
  obtain ⟨shared, found⟩ :=
    Option.isSome_iff_exists.mp (coherent.registered l member id chain holds)
  have stages := uniform.shared l member id chain holds
  have first := coherent.cursor_chain? found
  rw [found, Option.getD_some] at stages ⊢
  rw [← stages, ← Chain.restarted, restarted_eq_self first]

/-- Atlases with the same locations are alike where their copies agree. -/
theorem alike_of_uniform (coherent_a : a.Coherent) (uniform_a : a.Uniform)
    (coherent_b : b.Coherent) (uniform_b : b.Uniform) (emptied : a.emptied = b.emptied)
    (locations : a.locations = b.locations) : a.Alike b where
  emptied
  locations
  shared l member id chain holds := by
    rw [shared_eq_ofStages coherent_a uniform_a member holds,
      shared_eq_ofStages coherent_b uniform_b (locations ▸ member) holds]

end ItemLogic.Atlas
