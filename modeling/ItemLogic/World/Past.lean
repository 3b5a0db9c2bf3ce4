import ItemLogic.World.Slot

/-!
# Slots of the past

The forest, the castle, the lake and the caves of banishment, in the order in which
they are listed.
-/

namespace ItemLogic.World

open Gate (needs anyOf)

/-- The slots of the past. -/
def past : List Area :=
  [⟨"Refugee Camp",
     [⟨.ofRoom 3 0, "Gift from Neliste", some (.orb .flame .melee), fun r => r.accessToPast⟩,
      ⟨.spot 3 30 296 176, "Refugee camp storage", some (.useItem .essenceCrystal),
        fun r => r.accessToPast⟩,
      ⟨.spot 3 30 232 176, "Refugee camp storage", some (.useItem .goldNecklace),
        fun r => r.accessToPast⟩,
      ⟨.spot 3 30 168 176, "Refugee camp storage", some (.relic .jewelryBox),
        fun r => r.accessToPast⟩]⟩,
   ⟨"Forest",
     [⟨.spot 3 3 648 272, "Refugee camp roof", some (.useItem .herb), fun r => r.accessToPast⟩,
      ⟨.spot 3 15 248 112, "Forest banishment overhang chest", some (.stat .maxAura),
        fun r => r.accessToPast &&& (r.npcDoubleJump ||| r.dashDoubleJump |||
          needs {.timeStop, .forwardDash})⟩,
      ⟨.spot 3 21 120 192, "Forest secret", some (.stat .maxSand),
        fun r => r.accessToPast &&& needs r.oculusRift⟩,
      ⟨.spot 3 12 776 560, "Forest three-way chest", some (.equipment .pointyHat),
        fun r => r.accessToPast⟩,
      ⟨.spot 3 11 392 608, "Waterfall", some (.useItem .magicMarbles),
        fun r => r.accessToPast &&& needs {.swimming}⟩,
      ⟨.spot 3 5 184 192, "Waterfall cave", some (.equipment .pendulum),
        fun r => r.accessToPast &&& needs {.swimming}⟩,
      ⟨.spot 3 2 584 368, "Forest stairs", some (.useItem .potion), fun r => r.accessToPast⟩,
      ⟨.spot 3 29 248 192, "Serene entrance bat cave", some (.stat .maxHp),
        fun r => r.leftSideForestCaves⟩]⟩,
   ⟨"Upper Lake Serene",
     [⟨.spot 7 16 152 96, "Upper Serene rat nest", some (.useItem .magicMarbles),
        fun r => r.upperLakeSerene⟩,
      ⟨.spot 7 19 248 96, "Upper Serene double bottom", some (.stat .maxAura),
        fun r => r.upperLakeSerene &&& needs {.doubleJump}⟩,
      ⟨.spot 7 19 168 240, "Upper Serene double top", some (.equipment .travelersCloak),
        fun r => r.upperLakeSerene⟩,
      ⟨.spot 7 27 184 144, "Upper Serene secret", some (.familiar .griffin),
        fun r => r.upperLakeSerene &&& needs r.oculusRift⟩,
      ⟨.ofRoom 7 28, "Serene save room", some (.useItem .alchemistTools),
        fun r => r.upperLakeSerene⟩,
      ⟨.spot 7 13 56 176, "Serene Queen's ledge", some (.useItem .warpCard),
        fun r => r.upperLakeSerene⟩,
      ⟨.spot 7 30 296 176, "Serene Queen's warp room", some (.relic .pyramidsKey),
        fun r => r.upperLakeSerene⟩,
      ⟨.spot 7 3 120 204, "Serene Frozen Cheveur ledge", none, fun r => r.upperLakeSerene⟩]⟩,
   ⟨"Lower Lake Serene",
     [⟨.spot 7 3 440 1232, "Lower Serene East", some (.useItem .potion),
        fun r => r.lowerLakeSerene⟩,
      ⟨.spot 7 7 1432 576, "Lower Serene under bridge", some (.useItem .magicMarbles),
        fun r => r.lowerLakeSerene⟩,
      ⟨.spot 7 20 248 96, "Lower Serene cave under bridge", some (.stat .maxSand),
        fun r => r.lowerLakeSerene⟩,
      ⟨.spot 7 6 520 496, "Lower Serene ledge above spikes", some (.useItem .potion),
        fun r => r.lowerLakeSerene⟩,
      ⟨.spot 7 11 88 240, "Lower Serene secret", some (.stat .maxHp),
        fun r => r.lowerLakeSerene &&& needs r.oculusRift⟩,
      ⟨.spot 7 2 1016 384, "Lower Serene T chest", some (.useItem .ether),
        fun r => r.lowerLakeSerene⟩,
      ⟨.spot 7 9 584 189, "Underwater pedestal", some (.orb .ice .melee),
        fun r => r.lowerLakeSerene⟩]⟩,
   ⟨"Caves of Banishment (Maw)",
     [⟨.spot 8 19 664 704, "Lower COB Shroom jump", some (.useItem .silverOre),
        fun r => r.lowerCavesOfBanishment &&& needs {.doubleJump}⟩,
      ⟨.spot 8 12 280 160, "Lower COB secret", some (.stat .maxHp),
        fun r => r.lowerCavesOfBanishment &&& needs r.oculusRift⟩,
      ⟨.spot 8 48 104 160, "Lower COB beside secret", some (.useItem .spaghetti),
        fun r => r.lowerCavesOfBanishment⟩,
      ⟨.spot 8 39 88 192, "Lower COB Shrooms and Slime", some (.useItem .silverOre),
        fun r => r.lowerCavesOfBanishment⟩,
      ⟨.spot 8 41 168 192, "Lower COB jackpot room", some (.useItem .goldNecklace),
        fun r => r.lowerCavesOfBanishment &&& r.dashDoubleJump⟩,
      ⟨.spot 8 41 216 192, "Lower COB jackpot room", some (.useItem .goldRing),
        fun r => r.lowerCavesOfBanishment &&& r.dashDoubleJump⟩,
      ⟨.spot 8 41 264 192, "Lower COB jackpot room", some (.useItem .essenceCrystal),
        fun r => r.lowerCavesOfBanishment &&& r.dashDoubleJump⟩,
      ⟨.spot 8 41 312 192, "Lower COB jackpot room", some (.useItem .magicMarbles),
        fun r => r.lowerCavesOfBanishment &&& r.dashDoubleJump⟩,
      ⟨.spot 8 42 216 189, "Lower COB waterfall pedestal", some (.orb .wind .melee),
        fun r => r.lowerCavesOfBanishment⟩,
      ⟨.spot 8 15 248 192, "Lower COB final chest", some (.useItem .silverOre),
        fun r => r.lowerCavesOfBanishment &&& needs {.doubleJump}⟩,
      ⟨.ofRoom 8 21, "Lower COB Plasma Crystal", some (.useItem .radiationCrystal),
        fun r => r.lowerCavesOfBanishment &&& anyOf ({.forwardDash} ∪ r.mawGasMask)⟩,
      ⟨.spot 8 31 88 400, "Mineshaft", some (.useItem .magicMarbles),
        fun r => r.lowerCavesOfBanishment &&& needs r.mawGasMask⟩]⟩,
   ⟨"Caves of Banishment (Sirens)",
     [⟨.spot 8 4 664 144, "Upper COB Wyverns", some (.useItem .silverOre),
        fun r => r.upperCavesOfBanishment⟩,
      ⟨.spot 8 3 808 144, "Upper COB sirens dry chest", some (.useItem .silverOre),
        fun r => r.upperCavesOfBanishment⟩,
      ⟨.spot 8 3 744 560, "Upper COB sirens underwater left", some (.useItem .silverOre),
        fun r => r.upperCavesOfBanishment &&& needs {.swimming}⟩,
      ⟨.spot 8 3 1848 576, "Upper COB sirens underwater right", some (.stat .maxAura),
        fun r => r.upperCavesOfBanishment &&& needs {.swimming}⟩,
      ⟨.spot 8 3 1256 544, "Upper COB sirens underwater right", some (.useItem .silverOre),
        fun r => r.upperCavesOfBanishment &&& needs {.swimming}⟩,
      ⟨.spot 8 5 88 496, "Upper COB underwater hook", some (.stat .maxSand),
        fun r => r.upperCavesOfBanishment &&& needs {.swimming}⟩]⟩,
   ⟨"Castle Ramparts",
     [⟨.spot 4 20 264 160, "Castle Ramparts moat cave", some (.stat .maxAura),
        fun r => r.accessToPast⟩,
      ⟨.spot 4 1 456 160, "Castle Ramparts bombers", some (.stat .maxSand),
        fun r => r.castleRamparts &&& r.smallNpcJumps⟩,
      ⟨.spot 4 3 136 144, "Castle Ramparts frozen engineer", some (.stat .maxHp),
        fun r => r.castleRamparts &&& anyOf {.timeStop, .forwardDash}⟩,
      ⟨.spot 4 10 56 192, "Castle Ramparts Giantess chest", some (.useItem .hiPotion),
        fun r => r.castleRamparts⟩,
      ⟨.spot 4 11 344 192, "Castle Ramparts Knight and Archer chest", some (.useItem .hiPotion),
        fun r => r.castleRamparts⟩,
      ⟨.spot 4 22 104 189, "Castle Ramparts pedestal", some (.orb .iron .melee),
        fun r => r.castleRamparts⟩]⟩,
   ⟨"Castle Keep",
     [⟨.spot 5 9 104 189, "Castle Keep basement secret", some (.orb .blood .melee),
        fun r => r.castleKeep &&& needs r.oculusRift⟩,
      ⟨.spot 5 10 104 192, "Castle Keep basement by secret", some (.familiar .sprite),
        fun r => r.castleKeep⟩,
      ⟨.spot 5 14 88 208, "Aelana's room", some (.useItem .magicMarbles),
        fun r => r.castleKeep &&& needs {.pinkOrb} &&& needs {.doubleJump}⟩,
      ⟨.spot 5 44 216 192, "Castle Keep basement Giantess", some (.useItem .potion),
        fun r => r.castleKeep⟩,
      ⟨.spot 5 45 104 192, "Castle Keep basement Eggs and Arrows", some (.stat .maxHp),
        fun r => r.castleKeep⟩,
      ⟨.spot 5 15 296 192, "Castle Keep basement solo egg", some (.stat .maxAura),
        fun r => r.castleKeep⟩,
      ⟨.spot 5 41 72 160, "Chest under the Golden Idol", some (.equipment .buckleHat),
        fun r => r.castleKeep⟩,
      ⟨.spot 5 20 504 48, "Castle Keep Royal Advisor ledge", none,
        fun r => r.castleKeep &&& needs {.timeStop}⟩,
      ⟨.spot 5 22 312 176, "Castle Keep Royal Guard room", some (.stat .maxSand),
        fun r => r.castleKeep &&& (needs {.timeStop, .forwardDash} ||| needs {.doubleJump})⟩,
      ⟨.ofRoom 5 5, "Golden Idol", some (.relic .doubleJump),
        fun r => r.castleKeep &&& needs {.timeStop}⟩]⟩,
   ⟨"Royal Towers",
     [⟨.spot 6 19 200 176, "Royal Towers secret", some (.stat .maxAura),
        fun r => r.royalTower &&& needs {.doubleJump} &&& needs r.oculusRift⟩,
      ⟨.spot 6 27 472 384, "Royal Towers above the secret", some (.useItem .magicMarbles),
        fun r => r.midRoyalTower⟩,
      ⟨.spot 6 1 1512 288, "Royal Courtyard", some (.useItem .potion),
        fun r => r.midRoyalTower⟩,
      ⟨.spot 6 25 360 176, "Royal Courtyard Tower right chest", some (.useItem .hiEther),
        fun r => r.upperRoyalTower &&& r.npcDoubleJump⟩,
      ⟨.spot 6 3 120 208, "Royal Courtyard Tower top", some (.familiar .demon),
        fun r => r.upperRoyalTower &&& r.npcDoubleJump⟩,
      ⟨.spot 6 17 200 112, "Right Royal Tower pinnacle", some (.stat .maxHp),
        fun r => r.upperRoyalTower &&& r.npcDoubleJump⟩,
      ⟨.spot 6 17 56 448,
        "Right Royal Tower chest below pinnacle", some (.equipment .vileteCrown),
        fun r => r.upperRoyalTower⟩,
      ⟨.spot 6 17 360 1840, "Right Royal Tower bottom", some (.equipment .midnightCloak),
        fun r => r.midRoyalTower⟩,
      ⟨.spot 6 13 120 176, "Left Royal Tower balcony", some (.stat .maxSand),
        fun r => r.upperRoyalTower⟩,
      ⟨.spot 6 22 88 208, "Left Royal Tower Royal Guard", some (.useItem .ether),
        fun r => r.upperRoyalTower⟩,
      ⟨.spot 6 11 360 544, "Before Aelana", some (.useItem .hiPotion),
        fun r => r.upperRoyalTower⟩,
      ⟨.spot 6 23 856 208, "Aelana's attic", some (.equipment .vileteDress),
        fun r => r.upperRoyalTower &&& needs {.upwardDash}⟩,
      ⟨.spot 6 14 136 208, "Aelana's chest", some (.orb .pink .melee),
        fun r => r.upperRoyalTower⟩,
      ⟨.spot 6 14 184 205, "Aelana's pedestal", some (.useItem .warpCard),
        fun r => r.upperRoyalTower⟩]⟩]

end ItemLogic.World
