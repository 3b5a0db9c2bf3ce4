import ItemLogic.World.Slot

/-!
# Slots of the present

The tutorial, the lake, the library and its towers, the sealed caves, the fortress
and the lab, in the order in which they are listed.
-/

namespace ItemLogic.World

open Gate (needs anyOf)

/-- The slots of the present. -/
def present : List Area :=
  [⟨"Tutorial",
     [⟨.spot 0 4 1 0, "Yo Momma", some (.orb .blue .melee), fun _ => .free⟩,
      ⟨.spot 0 4 2 0, "Yo Momma", some (.orb .blue .spell), fun _ => .free⟩]⟩,
   ⟨"Lake Desolation",
     [⟨.spot 1 1 1528 144, "Desolation Start lakebed", some (.useItem .futurePotion),
        fun r => r.accessToLakeDesolation⟩,
      ⟨.spot 1 15 264 144, "Desolation Start upper entrance", some (.equipment .oldCoat),
        fun r => r.accessToLakeDesolation⟩,
      ⟨.spot 1 25 296 176, "Desolation Start warp gate", some (.useItem .futureHiPotion),
        fun r => r.accessToLakeDesolation⟩,
      ⟨.spot 1 9 600 162, "Timespinner Wheel room", some (.relic .timespinnerWheel),
        fun r => r.accessToLakeDesolation⟩,
      ⟨.spot 1 14 40 176, "Desolation behind azure fire", some (.useItem .essenceCrystal),
        fun r => r.upperLakeDesolation⟩,
      ⟨.ofRoom 1 5, "Feline Sentry", some (.orb .blade .melee),
        fun r => r.upperLakeDesolation ||| r.lowerLakeDesolationBridge⟩]⟩,
   ⟨"Lower Lake Desolation",
     [⟨.spot 1 2 1016 384, "Lower Desolation T chest", some (.stat .maxSand),
        fun r => r.accessToLakeDesolation &&& needs {.timeStop}⟩,
      ⟨.spot 1 11 72 240, "Lower Desolation secret", some (.stat .maxHp),
        fun r => r.lowerLakeDesolationBridge &&& needs r.oculusRift⟩,
      ⟨.spot 1 3 56 176, "Desolation End frozen Cheveur Tank", some (.stat .maxAura),
        fun r => r.accessToLakeDesolation &&& needs {.timeStop}⟩]⟩,
   ⟨"Upper Lake Desolation",
     [⟨.spot 1 17 152 96, "Upper Desolation Cheveur Tanks", some (.useItem .goldRing),
        fun r => r.upperLakeDesolation⟩,
      ⟨.spot 1 21 200 144, "Upper Desolation secret", some (.useItem .essenceCrystal),
        fun r => r.upperLakeDesolation &&& needs r.oculusRift⟩,
      ⟨.spot 1 20 232 96, "Upper Desolation double top", some (.useItem .magicMarbles),
        fun r => r.upperLakeDesolation &&& needs {.doubleJump}⟩,
      ⟨.spot 1 20 168 240, "Upper Desolation double bottom", some (.useItem .futurePotion),
        fun r => r.upperLakeDesolation⟩,
      ⟨.spot 1 22 344 160, "Upper Desolation 3 Sparrows", some (.useItem .futureHiPotion),
        fun r => r.upperLakeDesolation⟩,
      ⟨.spot 1 18 1320 189, "Desolation Crash Site pedestal", some (.orb .moon .melee),
        fun r => r.upperLakeDesolation⟩,
      ⟨.spot 1 18 1272 192, "Desolation Crash Site chest", some (.equipment .captainsCap),
        fun r => r.upperLakeDesolation &&& needs {.gasMask} &&& r.killMaw⟩,
      ⟨.spot 1 18 1368 192, "Desolation Crash Site chest", some (.equipment .captainsJacket),
        fun r => r.upperLakeDesolation &&& needs {.gasMask} &&& r.killMaw⟩]⟩,
   ⟨"Library",
     [⟨.spot 2 60 328 160, "Library entrance", some (.stat .maxHp), fun r => r.leftLibrary⟩,
      ⟨.spot 2 54 296 176, "Library warp gate", some (.relic .scienceKeycardD),
        fun r => r.leftLibrary⟩,
      ⟨.spot 2 41 404 246, "Librarian", some (.relic .tablet), fun r => r.leftLibrary⟩,
      ⟨.spot 2 44 680 368, "Library central nook", some (.relic .foeScanner),
        fun r => r.leftLibrary⟩,
      ⟨.spot 2 47 216 208, "Library D-lock", some (.useItem .ether),
        fun r => r.leftLibrary &&& needs {.cardD}⟩,
      ⟨.spot 2 47 152 208, "Library D-lock", some (.orb .blade .passive),
        fun r => r.leftLibrary &&& needs {.cardD}⟩,
      ⟨.spot 2 47 88 208, "Library D-lock", some (.orb .blade .spell),
        fun r => r.leftLibrary &&& needs {.cardD}⟩]⟩,
   ⟨"Library Top",
     [⟨.spot 2 56 168 192, "Backer room", some (.useItem .goldNecklace),
        fun r => r.upperLeftLibrary⟩,
      ⟨.spot 2 56 392 192, "Backer room", some (.useItem .goldRing),
        fun r => r.upperLeftLibrary⟩,
      ⟨.spot 2 56 616 192, "Backer room", some (.useItem .essenceCrystal),
        fun r => r.upperLeftLibrary⟩,
      ⟨.spot 2 56 840 192, "Backer room", some (.useItem .essenceCrystal),
        fun r => r.upperLeftLibrary⟩,
      ⟨.spot 2 56 1064 192, "Backer room", some (.useItem .magicMarbles),
        fun r => r.upperLeftLibrary⟩]⟩,
   ⟨"Varndagroth Tower Left",
     [⟨.spot 2 34 232 1200, "Left Varndagray outside elevator", some (.useItem .filigreeTea),
        fun r => r.midLibrary⟩,
      ⟨.spot 2 40 344 176, "Varndagray Timespinner room", some (.relic .scienceKeycardC),
        fun r => r.midLibrary⟩,
      ⟨.spot 2 32 328 160, "Left Varndagray lower C-lock", some (.useItem .goldRing),
        fun r => r.midLibrary &&& needs {.cardC}⟩,
      ⟨.spot 2 7 232 144, "Varndagray secret", some (.stat .maxAura),
        fun r => r.midLibrary &&& needs r.oculusRift⟩,
      ⟨.spot 2 25 328 192, "Left Varndagray elevator chest", some (.stat .maxSand),
        fun r => r.midLibrary &&& needs {.cardE}⟩]⟩,
   ⟨"Varndagroth Tower Right",
     [⟨.spot 2 15 760 192, "Varndagray tower bridge", some (.useItem .futurePotion),
        fun r => r.upperRightSideLibrary⟩,
      ⟨.spot 2 20 72 1200, "Right Varndagray elevator chest", some (.useItem .jerky),
        fun r => r.rightSideLibraryElevator⟩,
      ⟨.spot 2 23 72 560, "Right Varndagray vents bottom", some (.useItem .futureHiPotion),
        fun r => r.upperRightSideLibrary &&& anyOf {.cardE, .doubleJump}⟩,
      ⟨.spot 2 23 1112 112, "Right Varndagray vents right", some (.useItem .futureHiPotion),
        fun r => r.upperRightSideLibrary &&& anyOf {.cardE, .doubleJump}⟩,
      ⟨.spot 2 23 136 304, "Right Varndagray vents left", some (.relic .elevatorKeycard),
        fun r => r.upperRightSideLibrary &&& anyOf {.cardE, .doubleJump}⟩,
      ⟨.spot 2 11 104 192, "Right Varndagray bottom floor", some (.useItem .essenceCrystal),
        fun r => r.lowerRightSideLibrary⟩,
      ⟨.spot 2 29 280 240, "Varndagroth", some (.relic .timespinnerSpindle),
        fun r => r.rightSideLibraryElevator &&& needs {.cardC}⟩,
      ⟨.ofRoom 2 52, "Varndagray spider hell", some (.relic .timespinnerGear2),
        fun r => r.rightSideLibraryElevator &&& needs {.cardA}⟩]⟩,
   ⟨"Sealed Caves (Xarion)",
     [⟨.spot 9 10 248 848, "Sealed Cave Skeleton", some (.relic .scienceKeycardB),
        fun r => r.sealedCavesLeft⟩,
      ⟨.spot 9 19 664 704, "Sealed Cave Fungus jump", some (.useItem .antidote),
        fun r => r.sealedCavesLower &&& needs {.timeStop}⟩,
      ⟨.spot 9 39 88 192, "Sealed Cave Fungus and Ichor", some (.useItem .antidote),
        fun r => r.sealedCavesLower⟩,
      ⟨.spot 9 41 312 192, "Sealed Cave mini jackpot", some (.useItem .galaxyStone),
        fun r => r.sealedCavesLower &&& r.dashDoubleJump⟩,
      ⟨.spot 9 42 328 192, "Sealed Cave waterfall mid", some (.useItem .magicMarbles),
        fun r => r.sealedCavesLower⟩,
      ⟨.spot 9 12 280 160, "Sealed Cave secret", some (.stat .maxHp),
        fun r => r.sealedCavesLower &&& needs r.oculusRift⟩,
      ⟨.spot 9 48 104 160, "Sealed Cave beside secret", some (.useItem .futureEther),
        fun r => r.sealedCavesLower⟩,
      ⟨.spot 9 15 248 192, "Sealed Cave last chest", some (.useItem .futureEther),
        fun r => r.sealedCavesLower &&& needs {.doubleJump}⟩,
      ⟨.ofRoom 9 13, "Xarion", some (.relic .timespinnerGear3), fun r => r.sealedCavesLower⟩]⟩,
   ⟨"Sealed Caves (Sirens)",
     [⟨.spot 9 5 88 496, "Upper Sealed Cave underwater hook", some (.stat .maxSand),
        fun r => r.sealedCavesSirens &&& needs {.swimming}⟩,
      ⟨.spot 9 3 1848 576, "Upper Sealed Cave sirens right", some (.equipment .birdStatue),
        fun r => r.sealedCavesSirens &&& needs {.swimming}⟩,
      ⟨.spot 9 3 744 560, "Upper Sealed Cave sirens left", some (.stat .maxAura),
        fun r => r.sealedCavesSirens &&& needs {.swimming}⟩,
      ⟨.spot 9 2 184 176, "Upper Sealed Cave end", some (.useItem .warpCard),
        fun r => r.sealedCavesSirens⟩,
      ⟨.spot 9 2 104 160, "Upper Sealed Cave end", some (.relic .waterMask),
        fun r => r.sealedCavesSirens⟩]⟩,
   ⟨"Military Fortress",
     [⟨.spot 10 3 264 128, "Hangar Bombers chest", some (.stat .maxSand),
        fun r => r.militaryFortress &&& r.npcDoubleJump &&& needs {.timespinnerWheel}⟩,
      ⟨.spot 10 11 296 192, "Hangar straight from entrance", some (.stat .maxAura),
        fun r => r.militaryFortress⟩,
      ⟨.spot 10 4 1064 176, "Hangar bridge left", some (.useItem .futureHiPotion),
        fun r => r.militaryFortressHangar⟩,
      ⟨.spot 10 10 104 192, "Hangar Giantess room", some (.relic .airMask),
        fun r => r.militaryFortressHangar⟩,
      ⟨.spot 10 8 1080 176, "Hangar bridge right", some (.equipment .labGlasses),
        fun r => r.militaryFortressHangar⟩,
      ⟨.spot 10 7 104 192, "Hangar B-lock", some (.useItem .plasmaIv),
        fun r => r.rightSideMilitaryFortressHangar &&& needs {.cardB}⟩,
      ⟨.spot 10 7 152 192, "Hangar B-lock", some (.stat .maxSand),
        fun r => r.rightSideMilitaryFortressHangar &&& needs {.cardB}⟩,
      ⟨.spot 10 18 280 189, "Hangar pedestal", some (.orb .gun .melee),
        fun r => r.rightSideMilitaryFortressHangar &&& (r.npcDoubleJump ||| r.dashDoubleJump)⟩]⟩,
   ⟨"The Lab",
     [⟨.spot 11 36 312 192, "Lab coffee break", some (.useItem .foodSynth), fun r => r.theLab⟩,
      ⟨.spot 11 3 1528 192, "Lab lower trash right", some (.stat .maxHp),
        fun r => r.theLab &&& needs {.doubleJump}⟩,
      ⟨.spot 11 3 72 192, "Lab lower trash left", some (.useItem .futurePotion),
        fun r => r.theLab &&& needs {.upwardDash}⟩,
      ⟨.spot 11 25 104 192, "Lab bottom solo Turret", some (.stat .maxAura),
        fun r => r.theLab &&& needs {.doubleJump}⟩,
      ⟨.spot 11 18 824 128, "Lab frozen trash room", some (.useItem .chaosHeal),
        fun r => r.theLabPoweredOff⟩,
      ⟨.ofRoom 11 39, "Lab's power supply", some (.orb .eye .melee),
        fun r => r.theLabPoweredOff⟩,
      ⟨.ofRoom 11 21, "Genza", some (.relic .scienceKeycardA), fun r => r.upperLab⟩,
      ⟨.ofRoom 11 1, "Experiment #13", some (.relic .dash), fun r => r.theLabPoweredOff⟩,
      ⟨.spot 11 6 328 192, "Lab terminal and chest room chest", some (.equipment .labCoat),
        fun r => r.upperLab⟩,
      ⟨.spot 11 27 296 160, "Lab secret", some (.stat .maxSand),
        fun r => r.upperLab &&& needs r.oculusRift⟩,
      ⟨.ofRoom 11 26, "Lab spider gell", some (.relic .timespinnerGear1),
        fun r => r.theLabPoweredOff &&& needs {.cardA}⟩]⟩,
   ⟨"Emperor's Tower",
     [⟨.spot 12 5 344 192, "Emperor's courtyard bottom", some (.stat .maxAura),
        fun r => r.emperorsTower⟩,
      ⟨.spot 12 3 200 160, "Emperor's secret", some (.equipment .lachiemCrown),
        fun r => r.emperorsTower &&& needs {.upwardDash} &&& needs r.oculusRift⟩,
      ⟨.spot 12 25 360 176, "Emperor's courtyard top", some (.equipment .empressCoat),
        fun r => r.emperorsTower &&& needs {.upwardDash}⟩,
      ⟨.spot 12 22 56 192, "Emperor's Galactic Sages", some (.stat .maxSand),
        fun r => r.emperorsTower⟩,
      ⟨.spot 12 9 344 928, "Right Emperor's Tower bottom", some (.useItem .futureHiEther),
        fun r => r.emperorsTower⟩,
      ⟨.spot 12 19 72 192, "Right Emperor's Tower top", some (.equipment .filigreeClasp),
        fun r => r.emperorsTower &&& r.npcDoubleJump⟩,
      ⟨.spot 12 13 120 176, "Left Emperor's Tower balcony", some (.stat .maxHp),
        fun r => r.emperorsTower⟩,
      ⟨.spot 12 11 264 208, "Emperor's room chest", some (.relic .empireBrooch),
        fun r => r.emperorsTower⟩,
      ⟨.spot 12 11 136 205, "Emperor's room pedestal", some (.orb .empire .melee),
        fun r => r.emperorsTower⟩]⟩]

end ItemLogic.World
