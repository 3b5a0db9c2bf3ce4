import ItemLogic.Gate.Basic
import ItemLogic.Options

/-!
# Regions

The gates of the regions of the world. A region further into the game is wired in
terms of the ones that lead to it, so its gate already carries every requirement
on the way there. Three options have a say: whether the game starts in the past,
whether the Maw needs the gas mask, and whether secret rooms need the eye ring.
-/

namespace ItemLogic.World

open Gate (needs anyOf)

/-- The gates of the regions, and the sets that options put on certain places. -/
structure Regions where
  /-- Asked for at every secret room; empty unless the eye orb ring is required. -/
  oculusRift : CapSet
  /-- Asked for in the poisoned parts of the Maw; empty unless the gas mask is required. -/
  mawGasMask : CapSet
  /-- The two eras. -/
  accessToPast : Gate
  accessToLakeDesolation : Gate
  /-- Movement: several small jumps off a bystander, a double jump off one, and a
      double jump at the end of a dash. -/
  smallNpcJumps : Gate
  npcDoubleJump : Gate
  dashDoubleJump : Gate
  lowerLakeDesolationBridge : Gate
  /-- The past, from the forest to the towers. -/
  leftSideForestCaves : Gate
  upperLakeSerene : Gate
  lowerLakeSerene : Gate
  lowerCavesOfBanishment : Gate
  upperCavesOfBanishment : Gate
  castleRamparts : Gate
  castleKeep : Gate
  royalTower : Gate
  midRoyalTower : Gate
  upperRoyalTower : Gate
  killMaw : Gate
  killTwins : Gate
  killAelana : Gate
  /-- The present, from the lake to the emperor's tower. -/
  upperLakeDesolation : Gate
  leftLibrary : Gate
  upperLeftLibrary : Gate
  ifritsLair : Gate
  midLibrary : Gate
  upperRightSideLibrary : Gate
  rightSideLibraryElevator : Gate
  lowerRightSideLibrary : Gate
  sealedCavesLeft : Gate
  sealedCavesLower : Gate
  sealedCavesSirens : Gate
  militaryFortress : Gate
  ravenlordsLair : Gate
  militaryFortressHangar : Gate
  rightSideMilitaryFortressHangar : Gate
  theLab : Gate
  theLabPoweredOff : Gate
  upperLab : Gate
  emperorsTower : Gate
  /-- The gyre and the pyramid, at whose end the game is won. -/
  temporalGyre : Gate
  leftPyramid : Gate
  nightmare : Gate

/-- The regions of a game. -/
def Regions.ofOptions (o : Options) : Regions :=
  let oculusRift : CapSet := if o.requireEyeOrbRing then {.oculusRift} else ∅
  let mawGasMask : CapSet := if o.gasMaw then {.gasMask} else ∅
  let accessToLakeDesolation :=
    if o.inverted then
      anyOf {.gateLakeDesolation, .gateKittyBoss, .gateLeftLibrary, .gateSealedCaves} |||
        needs {.gateSealedSirensCave, .cardE} |||
        anyOf {.cardE, .cardB} &&& needs {.gateMilitaryGate}
    else .free
  let lowerLakeDesolationBridge :=
    accessToLakeDesolation &&&
      anyOf {.timeStop, .forwardDash, .gateKittyBoss, .gateLeftLibrary}
  -- Through the timespinner in the library, or by a teleporter straight into the past.
  let accessToPast :=
    if o.inverted then .free
    else
      needs {.timespinnerWheel, .timespinnerSpindle} &&&
          (lowerLakeDesolationBridge &&& needs {.cardD} |||
            needs {.gateSealedSirensCave, .cardE} |||
            anyOf {.cardB, .cardE} &&& needs {.gateMilitaryGate}) |||
        anyOf {.gateLakeSereneLeft, .gateAccessToPast, .gateLakeSereneRight, .gateRoyalTowers,
          .gateCastleRamparts, .gateCastleKeep} |||
        anyOf {.gateCavesOfBanishment, .gateMaw} &&& needs mawGasMask
  let smallNpcJumps := anyOf {.timespinnerWheel, .upwardDash}
  let npcDoubleJump := needs {.doubleJump, .timespinnerWheel} ||| needs {.upwardDash}
  let dashDoubleJump := needs {.forwardDash, .doubleJump} ||| needs {.upwardDash}
  let leftSideForestCaves :=
    accessToPast &&& anyOf {.timeStop, .forwardDash} |||
      needs {.gateLakeSereneRight} ||| needs {.gateLakeSereneLeft}
  let upperLakeSerene :=
    leftSideForestCaves &&& anyOf {.timeStop, .swimming} ||| needs {.gateLakeSereneLeft}
  let lowerLakeSerene :=
    (leftSideForestCaves ||| needs {.gateLakeSereneLeft}) &&& needs {.swimming}
  let lowerCavesOfBanishment :=
    lowerLakeSerene ||| needs {.gateCavesOfBanishment} ||| needs {.gateMaw, .doubleJump}
  let castleKeep := accessToPast
  let royalTower := castleKeep &&& needs {.doubleJump} ||| needs {.gateRoyalTowers}
  let midRoyalTower := royalTower &&& (smallNpcJumps ||| dashDoubleJump)
  let upperRoyalTower := midRoyalTower &&& needs {.doubleJump}
  let killMaw :=
    (lowerLakeSerene ||| needs {.gateCavesOfBanishment} ||| needs {.gateMaw}) &&&
      needs mawGasMask
  let killTwins := castleKeep &&& needs {.timeStop}
  let killAelana := upperRoyalTower
  let upperLakeDesolation :=
    accessToLakeDesolation &&& upperLakeSerene &&& needs {.antiWeed}
  let leftLibrary :=
    upperLakeDesolation ||| lowerLakeDesolationBridge ||| needs {.gateLeftLibrary} |||
      needs {.gateKittyBoss} ||| needs {.gateSealedSirensCave, .cardE} |||
      anyOf {.cardB, .cardE} &&& needs {.gateMilitaryGate}
  let midLibrary :=
    leftLibrary &&& needs {.cardD} ||| needs {.gateSealedSirensCave, .cardE} |||
      anyOf {.cardB, .cardE} &&& needs {.gateMilitaryGate}
  let upperLeftLibrary := leftLibrary &&& anyOf {.doubleJump, .forwardDash}
  let upperRightSideLibrary :=
    midLibrary &&& (needs {.cardC} ||| needs {.cardB, .cardE}) |||
      anyOf {.gateMilitaryGate, .gateSealedSirensCave} &&& needs {.cardE}
  let rightSideLibraryElevator :=
    (midLibrary &&& anyOf {.cardC, .cardB} ||| needs {.gateMilitaryGate} |||
        needs {.gateSealedSirensCave}) &&&
      needs {.cardE}
  let lowerRightSideLibrary :=
    midLibrary &&& needs {.cardB} ||| rightSideLibraryElevator ||| needs {.gateMilitaryGate} |||
      needs {.gateSealedSirensCave, .cardE}
  let sealedCavesLeft :=
    accessToLakeDesolation &&& needs {.doubleJump} ||| needs {.gateSealedCaves}
  let sealedCavesSirens :=
    midLibrary &&& needs {.cardB} &&& needs {.cardE} ||| needs {.gateSealedSirensCave}
  let militaryFortress := lowerRightSideLibrary &&& killMaw &&& killTwins &&& killAelana
  let theLab := militaryFortress &&& needs {.cardB}
  let theLabPoweredOff := theLab &&& npcDoubleJump
  let upperLab := theLabPoweredOff &&& dashDoubleJump
  let leftPyramid :=
    upperLab &&&
      needs {.timespinnerWheel, .timespinnerSpindle, .timespinnerPiece1, .timespinnerPiece2,
        .timespinnerPiece3}
  { oculusRift
    mawGasMask
    accessToPast
    accessToLakeDesolation
    smallNpcJumps
    npcDoubleJump
    dashDoubleJump
    lowerLakeDesolationBridge
    leftSideForestCaves
    upperLakeSerene
    lowerLakeSerene
    lowerCavesOfBanishment
    upperCavesOfBanishment := accessToPast
    castleRamparts := accessToPast
    castleKeep
    royalTower
    midRoyalTower
    upperRoyalTower
    killMaw
    killTwins
    killAelana
    upperLakeDesolation
    leftLibrary
    upperLeftLibrary
    ifritsLair := upperLeftLibrary &&& needs {.kobo} &&& accessToPast
    midLibrary
    upperRightSideLibrary
    rightSideLibraryElevator
    lowerRightSideLibrary
    sealedCavesLeft
    sealedCavesLower := sealedCavesLeft &&& needs {.cardA}
    sealedCavesSirens
    militaryFortress
    ravenlordsLair := upperLab &&& needs {.merchantCrow}
    militaryFortressHangar := militaryFortress
    rightSideMilitaryFortressHangar := militaryFortress &&& needs {.doubleJump}
    theLab
    theLabPoweredOff
    upperLab
    emperorsTower := upperLab
    temporalGyre := militaryFortress &&& needs {.timespinnerWheel}
    leftPyramid
    nightmare := leftPyramid &&& needs {.upwardDash} }

end ItemLogic.World
