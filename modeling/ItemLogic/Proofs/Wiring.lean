import ItemLogic.Gate.Lemmas
import ItemLogic.Proofs.WorldKeys
import Mathlib.Data.List.Forall2

/-!
# The wiring as one expression

Every gate of the world is put together out of the gates of the regions, by conjunction and
disjunction, and so are the gates of the regions. A relation between gates that both operations
keep therefore holds between the two worlds of two options, gate by gate, as soon as it holds
where the options themselves come in: at the secret rooms and in the poisoned parts of the Maw.
The one gate that puts an option among alternatives is the plasma crystal's.
-/

namespace ItemLogic

open Gate (needs anyOf)

/-- A relation between gates that conjunction and disjunction keep. It relates a gate that is
    given by a set to itself; no such set of the wiring asks for the eye ring. -/
structure Gate.Compatible (related : Gate → Gate → Prop) : Prop where
  needs (s : CapSet) (ringless : .oculusRift ∉ s := by decide) : related (needs s) (needs s)
  anyOf (s : CapSet) (ringless : .oculusRift ∉ s := by decide) : related (anyOf s) (anyOf s)
  and {g g' h h' : Gate} (left : related g g') (right : related h h') :
    related (g &&& h) (g' &&& h')
  or {g g' h h' : Gate} (left : related g g') (right : related h h') :
    related (g ||| h) (g' ||| h')

namespace World

/-- The gates among the regions. -/
def Regions.gates : List (Regions → Gate) :=
  [accessToPast, accessToLakeDesolation, smallNpcJumps, npcDoubleJump, dashDoubleJump,
   lowerLakeDesolationBridge, leftSideForestCaves, upperLakeSerene, lowerLakeSerene,
   lowerCavesOfBanishment, upperCavesOfBanishment, castleRamparts, castleKeep, royalTower,
   midRoyalTower, upperRoyalTower, killMaw, killTwins, killAelana, upperLakeDesolation,
   leftLibrary, upperLeftLibrary, ifritsLair, midLibrary, upperRightSideLibrary,
   rightSideLibraryElevator, lowerRightSideLibrary, sealedCavesLeft, sealedCavesLower,
   sealedCavesSirens, militaryFortress, ravenlordsLair, militaryFortressHangar,
   rightSideMilitaryFortressHangar, theLab, theLabPoweredOff, upperLab, emperorsTower,
   temporalGyre, leftPyramid, nightmare]

/-- The room of the plasma crystal. -/
def plasmaCrystal : Key := .ofRoom 8 21

/-- The gate of the plasma crystal. -/
def Regions.crystalGate (r : Regions) : Gate :=
  r.lowerCavesOfBanishment &&& anyOf ({.forwardDash} ∪ r.mawGasMask)

/-- Two sets of regions whose gates are related one by one. -/
structure Regions.Correspond (related : Gate → Gate → Prop) (r s : Regions) : Prop where
  oculusRift : related (needs r.oculusRift) (needs s.oculusRift)
  mawGasMask : related (needs r.mawGasMask) (needs s.mawGasMask)
  gates : ∀ gate ∈ Regions.gates, related (gate r) (gate s)

variable {related : Gate → Gate → Prop}

/-- The gates of all slots but the plasma crystal's are related when those of the regions are. -/
theorem Regions.Correspond.slots {r s : Regions} (regions : r.Correspond related s)
    (compatible : Gate.Compatible related) :
    ∀ area ∈ areas everywhere, ∀ slot ∈ area.slots, slot.key ≠ plasmaCrystal →
      related (slot.gate r) (slot.gate s) := by
  obtain ⟨ring, mask, gates⟩ := regions
  simp only [Regions.gates, List.forall_mem_cons, List.not_mem_nil, false_imp_iff, implies_true,
    and_true] at gates
  obtain ⟨needs, anyOf, and, or⟩ := compatible
  have free : related .free .free := needs ∅
  -- The shapes below stand here because a slot spells them out and no region is named for them.
  have and₃ {f g h f' g' h' : Gate} (first : related f f') (second : related g g')
      (third : related h h') : related (f &&& g &&& h) (f' &&& g' &&& h') :=
    and (and first second) third
  have climb : related (Gate.needs {.timeStop, .forwardDash} ||| Gate.needs {.doubleJump})
      (Gate.needs {.timeStop, .forwardDash} ||| Gate.needs {.doubleJump}) :=
    or (needs _) (needs _)
  have leap : related
      (r.npcDoubleJump ||| r.dashDoubleJump ||| Gate.needs {.timeStop, .forwardDash})
      (s.npcDoubleJump ||| s.dashDoubleJump ||| Gate.needs {.timeStop, .forwardDash}) :=
    or (or (by simp only [*]) (by simp only [*])) (needs _)
  simp only [areas, everywhere, present, past, pyramid, gyre, terminals, cantoran, lore,
    List.forall_mem_append, List.forall_mem_cons, List.not_mem_nil, false_imp_iff, implies_true,
    and_true, if_true]
  simp [*, plasmaCrystal]

/-- The one slot whose gate the theorem above leaves out. -/
theorem gate_of_key_eq_plasmaCrystal (r : Regions) :
    ∀ area ∈ areas everywhere, ∀ slot ∈ area.slots, slot.key = plasmaCrystal →
      slot.gate r = r.crystalGate := by
  simp only [areas, everywhere, present, past, pyramid, gyre, terminals, cantoran, lore,
    List.forall_mem_append, List.forall_mem_cons, List.not_mem_nil, false_imp_iff, implies_true,
    and_true, if_true]
  simp +decide [Regions.crystalGate]

/-- The gates of the regions are related, for two options with one era, when the sets are that
    the options bring in. -/
theorem correspond_ofOptions {o o' : Options} (compatible : Gate.Compatible related)
    (era : o.inverted = o'.inverted) :
    let r := Regions.ofOptions o
    let s := Regions.ofOptions o'
    related (needs r.oculusRift) (needs s.oculusRift) →
    related (needs r.mawGasMask) (needs s.mawGasMask) → r.Correspond related s := by
  intro r s ring mask
  obtain ⟨needs, anyOf, and, or⟩ := compatible
  have perEra {g h g' h' : Gate} (inverted : related g g') (normal : related h h') :
      related (if o.inverted then g else h) (if o'.inverted then g' else h') := by
    rw [era]
    split
    · exact inverted
    · exact normal
  have lake : related r.accessToLakeDesolation s.accessToLakeDesolation :=
    perEra (or (or (anyOf _) (needs _)) (and (anyOf _) (needs _))) (needs ∅)
  have bridge : related r.lowerLakeDesolationBridge s.lowerLakeDesolationBridge :=
    and lake (anyOf _)
  have past : related r.accessToPast s.accessToPast := by
    have spun := or (or (and bridge (needs {.cardD})) (needs {.gateSealedSirensCave, .cardE}))
      (and (anyOf {.cardB, .cardE}) (needs {.gateMilitaryGate}))
    exact perEra (needs ∅) (or (or (and (needs _) spun) (anyOf _)) (and (anyOf _) mask))
  have smallNpcJumps : related r.smallNpcJumps s.smallNpcJumps := by
    dsimp only [r, s, Regions.ofOptions]
    exact anyOf _
  have npcDoubleJump : related r.npcDoubleJump s.npcDoubleJump := or (needs _) (needs _)
  have dashDoubleJump : related r.dashDoubleJump s.dashDoubleJump := or (needs _) (needs _)
  have forest : related r.leftSideForestCaves s.leftSideForestCaves :=
    or (or (and past (anyOf _)) (needs _)) (needs _)
  have upperSerene : related r.upperLakeSerene s.upperLakeSerene :=
    or (and forest (anyOf _)) (needs _)
  have lowerSerene : related r.lowerLakeSerene s.lowerLakeSerene :=
    and (or forest (needs _)) (needs _)
  have lowerCaves : related r.lowerCavesOfBanishment s.lowerCavesOfBanishment :=
    or (or lowerSerene (needs _)) (needs _)
  have royalTower : related r.royalTower s.royalTower := or (and past (needs _)) (needs _)
  have midRoyalTower : related r.midRoyalTower s.midRoyalTower :=
    and royalTower (or smallNpcJumps dashDoubleJump)
  have upperRoyalTower : related r.upperRoyalTower s.upperRoyalTower :=
    and midRoyalTower (needs _)
  have killMaw : related r.killMaw s.killMaw :=
    and (or (or lowerSerene (needs _)) (needs _)) mask
  have killTwins : related r.killTwins s.killTwins := and past (needs _)
  have upperDesolation : related r.upperLakeDesolation s.upperLakeDesolation :=
    and (and lake upperSerene) (needs _)
  have leftLibrary : related r.leftLibrary s.leftLibrary :=
    or (or (or (or (or upperDesolation bridge) (needs _)) (needs _)) (needs _))
      (and (anyOf _) (needs _))
  have midLibrary : related r.midLibrary s.midLibrary :=
    or (or (and leftLibrary (needs _)) (needs _)) (and (anyOf _) (needs _))
  have upperLeftLibrary : related r.upperLeftLibrary s.upperLeftLibrary :=
    and leftLibrary (anyOf _)
  have upperRight : related r.upperRightSideLibrary s.upperRightSideLibrary :=
    or (and midLibrary (or (needs _) (needs _))) (and (anyOf _) (needs _))
  have elevator : related r.rightSideLibraryElevator s.rightSideLibraryElevator :=
    and (or (or (and midLibrary (anyOf _)) (needs _)) (needs _)) (needs _)
  have lowerRight : related r.lowerRightSideLibrary s.lowerRightSideLibrary :=
    or (or (or (and midLibrary (needs _)) elevator) (needs _)) (needs _)
  have sealedLeft : related r.sealedCavesLeft s.sealedCavesLeft :=
    or (and lake (needs _)) (needs _)
  have sirens : related r.sealedCavesSirens s.sealedCavesSirens :=
    or (and (and midLibrary (needs _)) (needs _)) (needs _)
  have fortress : related r.militaryFortress s.militaryFortress :=
    and (and (and lowerRight killMaw) killTwins) upperRoyalTower
  have lab : related r.theLab s.theLab := and fortress (needs _)
  have poweredOff : related r.theLabPoweredOff s.theLabPoweredOff := and lab npcDoubleJump
  have upperLab : related r.upperLab s.upperLab := and poweredOff dashDoubleJump
  have leftPyramid : related r.leftPyramid s.leftPyramid := and upperLab (needs _)
  refine ⟨ring, mask, ?_⟩
  simp only [Regions.gates, List.forall_mem_cons, List.not_mem_nil, false_imp_iff, implies_true,
    and_true]
  exact ⟨past, lake, smallNpcJumps, npcDoubleJump, dashDoubleJump, bridge, forest, upperSerene,
    lowerSerene, lowerCaves, past, past, past, royalTower, midRoyalTower, upperRoyalTower, killMaw,
    killTwins, upperRoyalTower, upperDesolation, leftLibrary, upperLeftLibrary,
    and (and upperLeftLibrary (needs _)) past, midLibrary, upperRight, elevator, lowerRight,
    sealedLeft, and sealedLeft (needs _), sirens, fortress, and upperLab (needs _), fortress,
    and fortress (needs _), lab, poweredOff, upperLab, upperLab, and fortress (needs _),
    leftPyramid, and leftPyramid (needs _)⟩

/-- The locations of two options that call for the same groups are related one by one. -/
theorem forall₂_locations {o o' : Options} {catalog catalog' : Catalog}
    {related : Location → Location → Prop} (groups : areas o = areas o')
    (start : o.startWithTalaria = o'.startWithTalaria)
    (slots : ∀ area ∈ areas o, ∀ slot ∈ area.slots,
      related (slot.location area.name (.ofOptions o) catalog)
        (slot.location area.name (.ofOptions o') catalog'))
    (picked : related (talaria catalog) (talaria catalog')) :
    List.Forall₂ related (locations catalog o) (locations catalog' o') := by
  rw [locations, locations, ← groups, ← start]
  refine List.rel_append ?_ ?_
  · have areas : List.Forall₂ (fun area area' => area = area' ∧ area ∈ areas o) (areas o)
        (areas o) := List.forall₂_same.mpr fun area known => ⟨rfl, known⟩
    refine List.rel_flatMap areas ?_
    rintro area _ ⟨rfl, known⟩
    rw [List.forall₂_map_left_iff, List.forall₂_map_right_iff, List.forall₂_same]
    exact slots area known
  · split
    · exact .cons picked .nil
    · exact .nil

section Paired

variable {related : Location → Location → Prop} {ls ms : List Location}
  (key_eq : ∀ l m, related l m → l.key = m.key)

include key_eq

/-- Lists of locations that are related one by one have the same keys. -/
theorem map_key_of_paired (paired : List.Forall₂ related ls ms) :
    ls.map (·.key) = ms.map (·.key) := by
  rw [← List.forall₂_eq_eq_eq, List.forall₂_map_left_iff, List.forall₂_map_right_iff]
  exact paired.imp key_eq

/-- Where a location opens just when its counterpart does and its key is among some, the keys of
    the open ones are those of the open counterparts, as far as they are among them. -/
theorem reachable_keys_of_paired {held : CapSet} {kept : Key → Prop} [DecidablePred kept]
    (paired : List.Forall₂ related ls ms)
    (opens_iff : ∀ l m, related l m →
      (l.gate.opens held = true ↔ kept m.key ∧ m.gate.opens held = true)) :
    (ls.filter (·.gate.opens held)).map (·.key) =
      ((ms.filter (·.gate.opens held)).map (·.key)).filter fun key => kept key := by
  rw [List.filter_map, List.filter_filter]
  refine map_key_of_paired key_eq (List.rel_filter ?_ paired)
  intro l m counterpart
  simp [opens_iff l m counterpart]

/-- Where no key occurs twice, the locations of one key are related. -/
theorem related_of_key_eq (paired : List.Forall₂ related ls ms)
    (distinct : (ls.map (·.key)).Nodup) {l m : Location} (left : l ∈ ls) (right : m ∈ ms)
    (same : l.key = m.key) : related l m := by
  obtain ⟨j, inside, rfl⟩ := List.getElem_of_mem right
  have there : j < ls.length := paired.length_eq ▸ inside
  have counterpart : related ls[j] ms[j] := paired.get there inside
  have found : l = ls[j] := List.inj_on_of_nodup_map distinct left (List.getElem_mem there)
    (same.trans (key_eq _ _ counterpart).symm)
  rw [found]
  exact counterpart

end Paired

end World

end ItemLogic
