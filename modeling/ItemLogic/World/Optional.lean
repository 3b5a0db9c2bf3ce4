import ItemLogic.World.Slot

/-!
# Slots of the pyramid and of the optional groups

The pyramid is always there; each other group is there only when its option is on.
-/

namespace ItemLogic.World

open Gate (needs anyOf)

/-- The slots of the pyramid. -/
def pyramid : List Area :=
  [⟨"Ancient Pyramid",
     [⟨.spot 16 14 312 192, "Pyramid entrance freebie", some (.stat .maxSand),
        fun r => r.leftPyramid⟩,
      ⟨.spot 16 3 88 192, "Pyramid behind Conviction", some (.stat .maxHp),
        fun r => r.leftPyramid⟩,
      ⟨.spot 16 22 200 192, "Pyramid secret", some (.stat .maxAura),
        fun r => r.leftPyramid &&& needs r.oculusRift⟩,
      ⟨.spot 16 16 1512 144, "Pyramid secret secret", some (.relic .essenceOfSpace),
        fun r => r.leftPyramid &&& needs r.oculusRift⟩,
      ⟨.spot 16 5 136 192, "At Sandman's Door", some (.equipment .selenBangle),
        fun r => r.nightmare⟩]⟩]

/-- The slots of the temporal gyre and of the bosses it repeats. -/
def gyre : List Area :=
  [⟨"Temporal Gyre",
     [⟨.spot 14 14 200 832, "Gyre Chest 1", none, fun r => r.temporalGyre⟩,
      ⟨.spot 14 17 200 832, "Gyre Chest 2", none, fun r => r.temporalGyre⟩,
      ⟨.spot 14 20 200 832, "Gyre Chest 3", none, fun r => r.temporalGyre⟩,
      ⟨.spot 14 8 120 176, "Ravenlord Entry", none, fun r => r.ravenlordsLair⟩,
      ⟨.spot 14 9 200 125, "Ravenlord Pedestal", none, fun r => r.ravenlordsLair⟩,
      ⟨.spot 14 9 280 176, "Ravenlord Exit", none, fun r => r.ravenlordsLair⟩,
      ⟨.spot 14 6 40 208, "Ifrit Entry", none, fun r => r.ifritsLair⟩,
      ⟨.spot 14 7 200 205, "Ifrit Pedestal", none, fun r => r.ifritsLair⟩,
      ⟨.spot 14 7 280 208, "Ifrit Exit", none, fun r => r.ifritsLair⟩]⟩]

/-- The terminals, read with the tablet. -/
def terminals : List Area :=
  [⟨"Library",
     [⟨.spot 2 44 792 592, "Library terminal 1", none,
        fun r => r.leftLibrary &&& needs {.tablet}⟩,
      ⟨.spot 2 44 120 368, "Library terminal 2", none,
        fun r => r.leftLibrary &&& needs {.tablet}⟩,
      ⟨.spot 2 44 456 368, "Library terminal 3", none,
        fun r => r.leftLibrary &&& needs {.tablet}⟩,
      ⟨.spot 2 58 152 208, "V terminal 1", none,
        fun r => r.leftLibrary &&& needs {.tablet} &&& needs {.cardV}⟩,
      ⟨.spot 2 58 232 208, "V terminal 2", none,
        fun r => r.leftLibrary &&& needs {.tablet} &&& needs {.cardV}⟩,
      ⟨.spot 2 58 312 208, "V terminal 3", none,
        fun r => r.leftLibrary &&& needs {.tablet} &&& needs {.cardV}⟩]⟩,
   ⟨"Library Top",
     [⟨.spot 2 44 568 176, "Terminal under Backer room", none,
        fun r => r.upperLeftLibrary &&& needs {.tablet}⟩]⟩,
   ⟨"Varndagroth Tower Right",
     [⟨.spot 2 18 200 192, "Varndagray terminal", none,
        fun r => r.rightSideLibraryElevator &&& needs {.cardB} &&& needs {.tablet}⟩]⟩,
   ⟨"The Lab",
     [⟨.spot 11 6 200 192, "Lab terminal and chest room terminal", none,
        fun r => r.upperLab &&& needs {.tablet}⟩,
      ⟨.spot 11 16 600 192, "Sentry platform terminal", none,
        fun r => r.theLabPoweredOff &&& needs {.tablet}⟩,
      ⟨.spot 11 34 200 192, "Lab terminal by Experiment 13", none,
        fun r => r.theLab &&& needs {.tablet}⟩,
      ⟨.spot 11 37 200 192, "Lab Bottom terminal left", none,
        fun r => r.theLab &&& needs {.tablet}⟩,
      ⟨.spot 11 15 152 176, "Lab Bottom terminal middle", none,
        fun r => r.theLabPoweredOff &&& needs {.tablet}⟩,
      ⟨.spot 11 38 120 176, "Lab Bottom terminal right", none,
        fun r => r.theLabPoweredOff &&& needs {.tablet}⟩]⟩]

/-- The fight with Cantoran. -/
def cantoran : List Area :=
  [⟨"Upper Lake Serene",
     [⟨.ofRoom 7 5, "Cantoran", some (.orb .barrier .melee), fun r => r.leftSideForestCaves⟩]⟩]

/-- The memories and letters. -/
def lore : List Area :=
  [⟨"Lake Desolation",
     [⟨.spot 1 10 312 81, "Lake Desolation memory (Time Messenger)", none,
        fun r => r.lowerLakeDesolationBridge⟩]⟩,
   ⟨"Library",
     [⟨.spot 2 5 200 145, "Library Waterway memory (A Message)", none, fun r => r.leftLibrary⟩,
      ⟨.spot 2 45 344 145, "Library under Backer room memory (Lachiemi Sun)", none,
        fun r => r.upperLeftLibrary⟩,
      ⟨.spot 2 51 88 177, "Library Backer room memory (Moonlit Night)", none,
        fun r => r.upperLeftLibrary⟩]⟩,
   ⟨"Varndagroth Tower Left",
     [⟨.spot 2 25 216 145, "Left Varndagray Tower memory (Nomads)", none,
        fun r => r.midLibrary &&& needs {.cardE}⟩]⟩,
   ⟨"Varndagroth Tower Right",
     [⟨.spot 2 46 200 145, "Varndagray Sealed Caves elevator memory (Childhood)", none,
        fun r => r.midLibrary &&& needs {.cardB}⟩,
      ⟨.spot 2 11 200 161, "Right Varndagray bottom memory (Faron)", none,
        fun r => r.lowerRightSideLibrary⟩]⟩,
   ⟨"Military Hangar",
     [⟨.spot 10 3 536 97, "Military Hangar memory (A Solution)", none,
        fun r => r.militaryFortress &&& r.npcDoubleJump &&& needs {.timespinnerWheel}⟩]⟩,
   ⟨"The Lab",
     [⟨.spot 11 7 248 129, "Lab trash secret memory 1 (An Old Friend)", none,
        fun r => r.theLab &&& needs r.oculusRift⟩,
      ⟨.spot 11 7 296 129, "Lab trash secret memory 2 (Twilight Dinner)", none,
        fun r => r.theLab &&& needs r.oculusRift⟩]⟩,
   ⟨"Emperor's Tower",
     [⟨.spot 12 19 56 145, "Right Emperor's Tower top memory (Final Circle)", none,
        fun r => r.emperorsTower &&& r.npcDoubleJump⟩]⟩,
   ⟨"Forest",
     [⟨.spot 3 12 472 161, "Forest three-way letter (Lachiem Expedition)", none,
        fun r => r.accessToPast⟩,
      ⟨.spot 3 15 328 97, "Forest banishment overhang letter (Peace Treaty)", none,
        fun r => r.accessToPast &&& (r.npcDoubleJump ||| r.dashDoubleJump |||
          needs {.timeStop, .forwardDash})⟩]⟩,
   ⟨"Castle Ramparts",
     [⟨.spot 4 18 456 497, "Ramparts moat letter (Prime Edicts)", none,
        fun r => r.castleRamparts⟩,
      ⟨.spot 4 11 360 161,
        "Ramparts Knight and Archer letter (Declaration of Independence)", none,
        fun r => r.castleRamparts⟩]⟩,
   ⟨"Castle Keep",
     [⟨.spot 5 41 184 177, "Letter under the Golden Idol (Letter of Reference)", none,
        fun r => r.castleKeep⟩,
      ⟨.spot 5 44 264 161, "Keep basement Giantess letter (Political Advice)", none,
        fun r => r.castleKeep⟩,
      ⟨.spot 5 14 568 177, "Aelana's room letter (Diplomatic Missive)", none,
        fun r => r.castleKeep &&& needs {.pinkOrb} &&& needs {.doubleJump}⟩]⟩,
   ⟨"Royal Towers",
     [⟨.spot 6 17 344 433, "Right Royal Tower letter below pinnacle (War of the Sisters)", none,
        fun r => r.upperRoyalTower⟩,
      ⟨.spot 6 14 136 177, "Letter beyond Aelana (Stained Letter)", none,
        fun r => r.upperRoyalTower⟩,
      ⟨.spot 6 25 152 145, "Royal Courtyard letter (Mission Findings)", none,
        fun r => r.upperRoyalTower &&& r.npcDoubleJump⟩]⟩,
   ⟨"Caves of Banishment (Maw)",
     [⟨.spot 8 36 136 145, "Caves of Banishment letter (Naïvety)", none,
        fun r => r.lowerCavesOfBanishment⟩]⟩]

end ItemLogic.World
