import ItemLogic.Gate.Lemmas
import ItemLogic.World.Regions
import Mathlib.Data.List.Chain

/-!
# The way to a region

A region is wired in terms of the ones that lead to it, so whoever passes its gate could have
passed every gate on the way. Where a region asks for something on top of an earlier one, that
shows in the wiring. It does not show where a teleporter leads straight into a region: then the
same teleporter, with the same card in hand, has to be an alternative for every region further
out. A game starts in one era with the gate of that era open, and it is the gate of the other
era that has to list the teleporters into it.
-/

namespace ItemLogic

open Gate (needs anyOf)

namespace Gate

/-- The first gate lies behind the second: whoever passes the first passes the second. -/
def Behind (g h : Gate) : Prop := ∀ held : CapSet, g.opens held = true → h.opens held = true

variable {g h k m : Gate} {s t : CapSet} {c : Capability}

/-- Every gate lies behind itself. -/
theorem Behind.refl (g : Gate) : g.Behind g := fun _ => id

/-- What lies behind a gate lies behind every gate that this one lies behind. -/
theorem Behind.trans (first : g.Behind h) (second : h.Behind k) : g.Behind k :=
  fun held => second held ∘ first held

/-- Everything lies behind a free gate. -/
theorem behind_free (g : Gate) : g.Behind free := fun held _ => opens_free held

/-- What is asked for on top of a gate lies behind it. -/
theorem and_behind_left (g h : Gate) : (g &&& h).Behind g := by
  intro held passed
  rw [opens_and, Bool.and_eq_true] at passed
  exact passed.1

/-- A conjunction lies behind its right side. -/
theorem and_behind_right (g h : Gate) : (g &&& h).Behind h := by
  intro held passed
  rw [opens_and, Bool.and_eq_true] at passed
  exact passed.2

/-- What lies behind two gates lies behind their conjunction. -/
theorem Behind.and (left : g.Behind h) (right : g.Behind k) : g.Behind (h &&& k) := by
  intro held passed
  rw [opens_and, Bool.and_eq_true]
  exact ⟨left held passed, right held passed⟩

/-- Alternatives lie behind a gate that each of them lies behind. -/
theorem or_behind (left : g.Behind k) (right : h.Behind k) : (g ||| h).Behind k := by
  intro held passed
  rw [opens_or, Bool.or_eq_true] at passed
  exact passed.elim (left held) (right held)

/-- So do alternatives on top of which something else is asked for. -/
theorem or_and_behind (left : (g &&& k).Behind m) (right : (h &&& k).Behind m) :
    ((g ||| h) &&& k).Behind m := by
  intro held passed
  rw [opens_and, opens_or, Bool.and_eq_true, Bool.or_eq_true] at passed
  obtain ⟨first | second, more⟩ := passed
  · exact left held (by rw [opens_and, first, more]; rfl)
  · exact right held (by rw [opens_and, second, more]; rfl)

/-- What lies behind a gate lies behind it with an alternative to its right. -/
theorem Behind.or_left (behind : g.Behind h) (k : Gate) : g.Behind (h ||| k) := by
  intro held passed
  rw [opens_or, behind held passed, Bool.true_or]

/-- What lies behind a gate lies behind it with an alternative to its left. -/
theorem Behind.or_right (behind : g.Behind h) (k : Gate) : g.Behind (k ||| h) := by
  intro held passed
  rw [opens_or, behind held passed, Bool.or_true]

/-- Whoever holds each of two sets holds their union. -/
theorem needs_and_needs_behind (s t : CapSet) : (needs s &&& needs t).Behind (needs (s ∪ t)) := by
  intro held
  simp

/-- Whoever has to hold one of several capabilities holds some of them. -/
theorem needs_behind_anyOf (asked : c ∈ s) (listed : c ∈ t) : (needs s).Behind (anyOf t) := by
  intro held passed
  rw [opens_needs, decide_eq_true_eq] at passed
  exact opens_anyOf.mpr (.inr ⟨c, listed, CapSet.subset_iff.mp passed c asked⟩)

/-- A choice of one capability, with something else on top, is made capability by capability. -/
theorem anyOf_and_behind (filled : s ≠ ∅)
    (each : ∀ c : Capability, c ∈ s → (needs {c} &&& g).Behind h) : (anyOf s &&& g).Behind h := by
  intro held passed
  rw [opens_and, Bool.and_eq_true, opens_anyOf] at passed
  obtain ⟨nothing | ⟨c, listed, inHand⟩, more⟩ := passed
  · exact absurd nothing filled
  · refine each c listed held ?_
    rw [opens_and, opens_needs, more, Bool.and_true, decide_eq_true_eq]
    exact CapSet.singleton_subset_iff.mpr inHand

end Gate

namespace World

open Gate

/-- Ways through the world. Each starts far inside and leads out to the beginning of an era, or
    to where it meets another way. -/
def Regions.ways : List (List (Regions → Gate)) :=
  [[nightmare, leftPyramid, upperLab, theLabPoweredOff, theLab, militaryFortressHangar,
     militaryFortress, lowerRightSideLibrary],
   [militaryFortress, killMaw, accessToPast],
   [militaryFortress, killTwins],
   [militaryFortress, killAelana, upperRoyalTower, midRoyalTower, royalTower, castleKeep,
     accessToPast],
   [ravenlordsLair, upperLab],
   [temporalGyre, militaryFortress],
   [upperLakeSerene, leftSideForestCaves, accessToPast],
   [lowerLakeSerene, leftSideForestCaves],
   [upperLakeDesolation, accessToLakeDesolation],
   [upperLakeDesolation, upperLakeSerene],
   [ifritsLair, upperLeftLibrary, leftLibrary, accessToLakeDesolation],
   [upperRightSideLibrary, midLibrary, leftLibrary],
   [rightSideLibraryElevator, midLibrary],
   [sealedCavesLower, sealedCavesLeft, accessToLakeDesolation]]

section Past

variable (o : Options) {c : Capability}

/-- The teleporters into the past, those of the Maw apart, are among the ways into it. -/
theorem teleporter_behind_past
    (leads : c ∈ ({.gateLakeSereneLeft, .gateAccessToPast, .gateLakeSereneRight,
      .gateRoyalTowers, .gateCastleRamparts, .gateCastleKeep} : CapSet)) :
    (needs {c}).Behind (Regions.ofOptions o).accessToPast := by
  cases era : o.inverted with
  | true =>
    simp only [Regions.ofOptions, era]
    exact behind_free _
  | false =>
    simp only [Regions.ofOptions, era]
    exact ((needs_behind_anyOf (CapSet.mem_singleton.mpr rfl) leads).or_right _).or_left _

/-- So are those of the Maw to a player who can breathe there. -/
theorem maw_behind_past (leads : c ∈ ({.gateCavesOfBanishment, .gateMaw} : CapSet)) :
    (needs {c} &&& needs (Regions.ofOptions o).mawGasMask).Behind
      (Regions.ofOptions o).accessToPast := by
  cases era : o.inverted with
  | true =>
    simp only [Regions.ofOptions, era]
    exact behind_free _
  | false =>
    simp only [Regions.ofOptions, era]
    have arrives : (needs {c}).Behind (anyOf {.gateCavesOfBanishment, .gateMaw}) :=
      needs_behind_anyOf (CapSet.mem_singleton.mpr rfl) leads
    exact (((and_behind_left _ _).trans arrives).and (and_behind_right _ _)).or_right _

/-- The caves on the left side of the forest lie in the past. -/
theorem forest_behind_past :
    (Regions.ofOptions o).leftSideForestCaves.Behind (Regions.ofOptions o).accessToPast :=
  or_behind
    (or_behind (and_behind_left _ _) (teleporter_behind_past o (by decide)))
    (teleporter_behind_past o (by decide))

/-- The upper lake Serene is reached by way of the forest caves. -/
theorem upperSerene_behind_forest :
    (Regions.ofOptions o).upperLakeSerene.Behind (Regions.ofOptions o).leftSideForestCaves :=
  or_behind (and_behind_left _ _) ((Behind.refl _).or_right _)

/-- The lower lake Serene is reached by way of the forest caves. -/
theorem lowerSerene_behind_forest :
    (Regions.ofOptions o).lowerLakeSerene.Behind (Regions.ofOptions o).leftSideForestCaves :=
  (and_behind_left _ _).trans (or_behind (.refl _) ((Behind.refl _).or_right _))

/-- The Maw is killed in the past, whether one swims to it or arrives by teleporter. -/
theorem killMaw_behind_past :
    (Regions.ofOptions o).killMaw.Behind (Regions.ofOptions o).accessToPast := by
  have swum : (Regions.ofOptions o).lowerLakeSerene.Behind (Regions.ofOptions o).accessToPast :=
    (lowerSerene_behind_forest o).trans (forest_behind_past o)
  exact or_and_behind
    (or_and_behind ((and_behind_left _ _).trans swum) (maw_behind_past o (by decide)))
    (maw_behind_past o (by decide))

/-- The royal tower is reached by way of the castle keep. -/
theorem royalTower_behind_keep :
    (Regions.ofOptions o).royalTower.Behind (Regions.ofOptions o).castleKeep :=
  or_behind (and_behind_left _ _) (teleporter_behind_past o (by decide))

end Past

section Present

variable (o : Options) {c : Capability}

/-- The teleporters into the present that ask for no card are among the ways into it. -/
theorem teleporter_behind_lake
    (leads : c ∈ ({.gateLakeDesolation, .gateKittyBoss, .gateLeftLibrary, .gateSealedCaves} :
      CapSet)) :
    (needs {c}).Behind (Regions.ofOptions o).accessToLakeDesolation := by
  cases era : o.inverted with
  | true =>
    simp only [Regions.ofOptions, era]
    exact ((needs_behind_anyOf (CapSet.mem_singleton.mpr rfl) leads).or_left _).or_left _
  | false =>
    simp only [Regions.ofOptions, era]
    exact behind_free _

/-- So are the two that ask for one, with the card in hand. -/
theorem sirens_behind_lake :
    (needs {.gateSealedSirensCave, .cardE}).Behind
      (Regions.ofOptions o).accessToLakeDesolation := by
  cases era : o.inverted with
  | true =>
    simp only [Regions.ofOptions, era]
    exact ((Behind.refl _).or_right _).or_left _
  | false =>
    simp only [Regions.ofOptions, era]
    exact behind_free _

/-- So does the one that asks for one of two cards, with either in hand. -/
theorem military_behind_lake :
    (anyOf {.cardB, .cardE} &&& needs {.gateMilitaryGate}).Behind
      (Regions.ofOptions o).accessToLakeDesolation := by
  -- The two cards are listed in the other order there.
  have swapped : ({.cardB, .cardE} : CapSet) = {.cardE, .cardB} := by decide
  cases era : o.inverted with
  | true =>
    simp only [Regions.ofOptions, era, swapped]
    exact (Behind.refl _).or_right _
  | false =>
    simp only [Regions.ofOptions, era]
    exact behind_free _

/-- Behind the weeds is only a player who has come to both lakes. -/
theorem upperDesolation_behind_lakes :
    let r := Regions.ofOptions o
    r.upperLakeDesolation.Behind r.accessToLakeDesolation ∧
      r.upperLakeDesolation.Behind r.upperLakeSerene := by
  intro r
  have lakes : r.upperLakeDesolation.Behind (r.accessToLakeDesolation &&& r.upperLakeSerene) :=
    and_behind_left _ _
  exact ⟨lakes.trans (and_behind_left _ _), lakes.trans (and_behind_right _ _)⟩

/-- The left side of the library is reached by way of lake Desolation, from the upper lake or by
    teleporter. -/
theorem leftLibrary_behind_lake :
    (Regions.ofOptions o).leftLibrary.Behind (Regions.ofOptions o).accessToLakeDesolation :=
  or_behind
    (or_behind
      (or_behind
        (or_behind (or_behind (upperDesolation_behind_lakes o).1 (and_behind_left _ _))
          (teleporter_behind_lake o (by decide)))
        (teleporter_behind_lake o (by decide)))
      (sirens_behind_lake o))
    (military_behind_lake o)

/-- The middle of the library is reached by way of its left side. -/
theorem midLibrary_behind_leftLibrary :
    (Regions.ofOptions o).midLibrary.Behind (Regions.ofOptions o).leftLibrary :=
  or_behind
    (or_behind (and_behind_left _ _) (((Behind.refl _).or_right _).or_left _))
    ((Behind.refl _).or_right _)

/-- The two teleporters that ask for a card lead to the middle of the library. -/
theorem teleporter_behind_midLibrary
    (leads : c ∈ ({.gateMilitaryGate, .gateSealedSirensCave} : CapSet)) :
    (needs {c} &&& needs {.cardE}).Behind (Regions.ofOptions o).midLibrary := by
  rcases CapSet.mem_insert.mp leads with rfl | sirens
  · have card : (needs {.cardE}).Behind (anyOf {.cardB, .cardE}) :=
      needs_behind_anyOf (CapSet.mem_singleton.mpr rfl) (by decide)
    exact (((and_behind_right _ _).trans card).and (and_behind_left _ _)).or_right _
  · rw [CapSet.mem_singleton.mp sirens]
    exact ((needs_and_needs_behind _ _).or_right _).or_left _

/-- The upper right side of the library is reached by way of the middle. -/
theorem upperRight_behind_midLibrary :
    (Regions.ofOptions o).upperRightSideLibrary.Behind (Regions.ofOptions o).midLibrary :=
  or_behind (and_behind_left _ _)
    (anyOf_and_behind (by decide) fun _ => teleporter_behind_midLibrary o)

/-- The elevator on the right side of the library is reached by way of the middle. -/
theorem elevator_behind_midLibrary :
    (Regions.ofOptions o).rightSideLibraryElevator.Behind (Regions.ofOptions o).midLibrary :=
  or_and_behind
    (or_and_behind ((and_behind_left _ _).trans (and_behind_left _ _))
      (teleporter_behind_midLibrary o (by decide)))
    (teleporter_behind_midLibrary o (by decide))

/-- The left side of the sealed caves is reached by way of lake Desolation. -/
theorem sealedLeft_behind_lake :
    (Regions.ofOptions o).sealedCavesLeft.Behind (Regions.ofOptions o).accessToLakeDesolation :=
  or_behind (and_behind_left _ _) (teleporter_behind_lake o (by decide))

end Present

/-- The fortress is entered from the library, after three fights. -/
theorem fortress_behind_library_and_fights (o : Options) :
    let r := Regions.ofOptions o
    r.militaryFortress.Behind r.lowerRightSideLibrary ∧ r.militaryFortress.Behind r.killMaw ∧
      r.militaryFortress.Behind r.killTwins ∧ r.militaryFortress.Behind r.killAelana := by
  intro r
  have beforeAelana : r.militaryFortress.Behind
      (r.lowerRightSideLibrary &&& r.killMaw &&& r.killTwins) := and_behind_left _ _
  have beforeTwins : r.militaryFortress.Behind (r.lowerRightSideLibrary &&& r.killMaw) :=
    beforeAelana.trans (and_behind_left _ _)
  exact ⟨beforeTwins.trans (and_behind_left _ _), beforeTwins.trans (and_behind_right _ _),
    beforeAelana.trans (and_behind_right _ _), and_behind_right _ _⟩

/-- Whatever the options, every region on a way lies behind the next one: a player who passes
    its gate passes that of the next as well. -/
theorem region_behind_next (o : Options) :
    ∀ way ∈ Regions.ways,
      way.IsChain fun far near => (far (.ofOptions o)).Behind (near (.ofOptions o)) := by
  obtain ⟨library, maw, twins, aelana⟩ := fortress_behind_library_and_fights o
  obtain ⟨desolation, serene⟩ := upperDesolation_behind_lakes o
  simp only [Regions.ways, List.forall_mem_cons, List.isChain_cons_cons, List.isChain_singleton,
    List.not_mem_nil, false_imp_iff, implies_true, and_true]
  refine ⟨?pyramid, ⟨maw, killMaw_behind_past o⟩, twins, ?towers, and_behind_left _ _,
    and_behind_left _ _, ⟨upperSerene_behind_forest o, forest_behind_past o⟩,
    lowerSerene_behind_forest o, desolation, serene, ?lair,
    ⟨upperRight_behind_midLibrary o, midLibrary_behind_leftLibrary o⟩,
    elevator_behind_midLibrary o, and_behind_left _ _, sealedLeft_behind_lake o⟩
  case pyramid =>
    exact ⟨and_behind_left _ _, and_behind_left _ _, and_behind_left _ _, and_behind_left _ _,
      and_behind_left _ _, .refl _, library⟩
  case towers =>
    exact ⟨aelana, .refl _, and_behind_left _ _, and_behind_left _ _, royalTower_behind_keep o,
      .refl _⟩
  case lair =>
    exact ⟨(and_behind_left _ _).trans (and_behind_left _ _), and_behind_left _ _,
      leftLibrary_behind_lake o⟩

/-- In an inverted game a teleporter leads into the sealed caves. Whoever takes it and has the
    card for their lower part could have come by the lake, too. -/
theorem sealedCaves_visitor_passes_lake :
    let r := Regions.ofOptions { inverted := true }
    let held : CapSet := {.gateSealedCaves, .cardA}
    let way := [Regions.sealedCavesLower, Regions.sealedCavesLeft, Regions.accessToLakeDesolation]
    way ∈ Regions.ways ∧ r.sealedCavesLower.opens held = true ∧
      r.sealedCavesLeft.opens held = true ∧ r.accessToLakeDesolation.opens held = true := by
  intro r held way
  have listed : way ∈ Regions.ways := by simp [way, Regions.ways]
  have passed : r.sealedCavesLower.opens held = true := by decide +kernel
  obtain ⟨first, rest⟩ :=
    List.isChain_cons_cons.mp (region_behind_next { inverted := true } way listed)
  have left := first held passed
  exact ⟨listed, passed, left, (List.isChain_cons_cons.mp rest).1 held left⟩

end World

end ItemLogic
