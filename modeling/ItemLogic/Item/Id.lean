/-!
# Item identities

What an item is, wherever it lies. Every kind of item lists its members in `all`
and has a name for each, by which members are written and read.
-/

namespace ItemLogic

/-- Items that are used up or sold. -/
inductive UseItem
  | potion
  | hiPotion
  | ether
  | hiEther
  | herb
  | antidote
  | futurePotion
  | futureHiPotion
  | futureEther
  | futureHiEther
  | essenceCrystal
  | goldRing
  | goldNecklace
  | magicMarbles
  | filigreeTea
  | jerky
  | galaxyStone
  | warpCard
  | plasmaIv
  | foodSynth
  | chaosHeal
  | alchemistTools
  | silverOre
  | spaghetti
  | radiationCrystal
  deriving DecidableEq

namespace UseItem

/-- Every member, in order of declaration. -/
def all : List UseItem :=
  [.potion, .hiPotion, .ether, .hiEther, .herb, .antidote, .futurePotion, .futureHiPotion,
   .futureEther, .futureHiEther, .essenceCrystal, .goldRing, .goldNecklace, .magicMarbles,
   .filigreeTea, .jerky, .galaxyStone, .warpCard, .plasmaIv, .foodSynth, .chaosHeal,
   .alchemistTools, .silverOre, .spaghetti, .radiationCrystal]

/-- The name of a member. -/
def name : UseItem → String
  | potion => "Potion"
  | hiPotion => "HiPotion"
  | ether => "Ether"
  | hiEther => "HiEther"
  | herb => "Herb"
  | antidote => "Antidote"
  | futurePotion => "FuturePotion"
  | futureHiPotion => "FutureHiPotion"
  | futureEther => "FutureEther"
  | futureHiEther => "FutureHiEther"
  | essenceCrystal => "EssenceCrystal"
  | goldRing => "GoldRing"
  | goldNecklace => "GoldNecklace"
  | magicMarbles => "MagicMarbles"
  | filigreeTea => "FiligreeTea"
  | jerky => "Jerky"
  | galaxyStone => "GalaxyStone"
  | warpCard => "WarpCard"
  | plasmaIv => "PlasmaIv"
  | foodSynth => "FoodSynth"
  | chaosHeal => "ChaosHeal"
  | alchemistTools => "AlchemistTools"
  | silverOre => "SilverOre"
  | spaghetti => "Spaghetti"
  | radiationCrystal => "RadiationCrystal"

/-- The member of a name. -/
def named? (name : String) : Option UseItem := all.find? (·.name == name)

end UseItem

/-- Relics, the items that most progression hangs on. -/
inductive Relic
  | timespinnerWheel
  | timespinnerSpindle
  | timespinnerGear1
  | timespinnerGear2
  | timespinnerGear3
  | doubleJump
  | dash
  | scienceKeycardA
  | scienceKeycardB
  | scienceKeycardC
  | scienceKeycardD
  | scienceKeycardV
  | elevatorKeycard
  | waterMask
  | airMask
  | tablet
  | foeScanner
  | empireBrooch
  | jewelryBox
  | pyramidsKey
  | essenceOfSpace
  | eyeRing
  deriving DecidableEq

namespace Relic

/-- Every member, in order of declaration. -/
def all : List Relic :=
  [.timespinnerWheel, .timespinnerSpindle, .timespinnerGear1, .timespinnerGear2,
   .timespinnerGear3, .doubleJump, .dash, .scienceKeycardA, .scienceKeycardB,
   .scienceKeycardC, .scienceKeycardD, .scienceKeycardV, .elevatorKeycard, .waterMask,
   .airMask, .tablet, .foeScanner, .empireBrooch, .jewelryBox, .pyramidsKey,
   .essenceOfSpace, .eyeRing]

/-- The name of a member. -/
def name : Relic → String
  | timespinnerWheel => "TimespinnerWheel"
  | timespinnerSpindle => "TimespinnerSpindle"
  | timespinnerGear1 => "TimespinnerGear1"
  | timespinnerGear2 => "TimespinnerGear2"
  | timespinnerGear3 => "TimespinnerGear3"
  | doubleJump => "DoubleJump"
  | dash => "Dash"
  | scienceKeycardA => "ScienceKeycardA"
  | scienceKeycardB => "ScienceKeycardB"
  | scienceKeycardC => "ScienceKeycardC"
  | scienceKeycardD => "ScienceKeycardD"
  | scienceKeycardV => "ScienceKeycardV"
  | elevatorKeycard => "ElevatorKeycard"
  | waterMask => "WaterMask"
  | airMask => "AirMask"
  | tablet => "Tablet"
  | foeScanner => "FoeScanner"
  | empireBrooch => "EmpireBrooch"
  | jewelryBox => "JewelryBox"
  | pyramidsKey => "PyramidsKey"
  | essenceOfSpace => "EssenceOfSpace"
  | eyeRing => "EyeRing"

/-- The member of a name. -/
def named? (name : String) : Option Relic := all.find? (·.name == name)

end Relic

/-- The orbs by element. -/
inductive Orb
  | blue
  | blade
  | flame
  | ice
  | wind
  | iron
  | blood
  | pink
  | eye
  | gun
  | moon
  | empire
  | barrier
  deriving DecidableEq

namespace Orb

/-- Every member, in order of declaration. -/
def all : List Orb :=
  [.blue, .blade, .flame, .ice, .wind, .iron, .blood, .pink, .eye, .gun, .moon, .empire,
   .barrier]

/-- The name of a member. -/
def name : Orb → String
  | blue => "Blue"
  | blade => "Blade"
  | flame => "Flame"
  | ice => "Ice"
  | wind => "Wind"
  | iron => "Iron"
  | blood => "Blood"
  | pink => "Pink"
  | eye => "Eye"
  | gun => "Gun"
  | moon => "Moon"
  | empire => "Empire"
  | barrier => "Barrier"

/-- The member of a name. -/
def named? (name : String) : Option Orb := all.find? (·.name == name)

end Orb

/-- How an orb is worn. -/
inductive OrbSlot
  | melee
  | spell
  | passive
  deriving DecidableEq

namespace OrbSlot

/-- Every member, in order of declaration. -/
def all : List OrbSlot :=
  [.melee, .spell, .passive]

/-- The name of a member. -/
def name : OrbSlot → String
  | melee => "Melee"
  | spell => "Spell"
  | passive => "Passive"

/-- The member of a name. -/
def named? (name : String) : Option OrbSlot := all.find? (·.name == name)

end OrbSlot

/-- Clothes and jewellery. -/
inductive Equipment
  | oldCoat
  | captainsCap
  | captainsJacket
  | birdStatue
  | labGlasses
  | labCoat
  | lachiemCrown
  | empressCoat
  | filigreeClasp
  | pointyHat
  | pendulum
  | travelersCloak
  | buckleHat
  | vileteCrown
  | midnightCloak
  | vileteDress
  | selenBangle
  deriving DecidableEq

namespace Equipment

/-- Every member, in order of declaration. -/
def all : List Equipment :=
  [.oldCoat, .captainsCap, .captainsJacket, .birdStatue, .labGlasses, .labCoat,
   .lachiemCrown, .empressCoat, .filigreeClasp, .pointyHat, .pendulum, .travelersCloak,
   .buckleHat, .vileteCrown, .midnightCloak, .vileteDress, .selenBangle]

/-- The name of a member. -/
def name : Equipment → String
  | oldCoat => "OldCoat"
  | captainsCap => "CaptainsCap"
  | captainsJacket => "CaptainsJacket"
  | birdStatue => "BirdStatue"
  | labGlasses => "LabGlasses"
  | labCoat => "LabCoat"
  | lachiemCrown => "LachiemCrown"
  | empressCoat => "EmpressCoat"
  | filigreeClasp => "FiligreeClasp"
  | pointyHat => "PointyHat"
  | pendulum => "Pendulum"
  | travelersCloak => "TravelersCloak"
  | buckleHat => "BuckleHat"
  | vileteCrown => "VileteCrown"
  | midnightCloak => "MidnightCloak"
  | vileteDress => "VileteDress"
  | selenBangle => "SelenBangle"

/-- The member of a name. -/
def named? (name : String) : Option Equipment := all.find? (·.name == name)

end Equipment

/-- Companions. -/
inductive Familiar
  | griffin
  | sprite
  | demon
  | kobo
  | merchantCrow
  deriving DecidableEq

namespace Familiar

/-- Every member, in order of declaration. -/
def all : List Familiar :=
  [.griffin, .sprite, .demon, .kobo, .merchantCrow]

/-- The name of a member. -/
def name : Familiar → String
  | griffin => "Griffin"
  | sprite => "Sprite"
  | demon => "Demon"
  | kobo => "Kobo"
  | merchantCrow => "MerchantCrow"

/-- The member of a name. -/
def named? (name : String) : Option Familiar := all.find? (·.name == name)

end Familiar

/-- Permanent increases. -/
inductive Stat
  | maxHp
  | maxAura
  | maxSand
  deriving DecidableEq

namespace Stat

/-- Every member, in order of declaration. -/
def all : List Stat :=
  [.maxHp, .maxAura, .maxSand]

/-- The name of a member. -/
def name : Stat → String
  | maxHp => "MaxHp"
  | maxAura => "MaxAura"
  | maxSand => "MaxSand"

/-- The member of a name. -/
def named? (name : String) : Option Stat := all.find? (·.name == name)

end Stat

/-- Items that are found in stages. -/
inductive Upgrade
  | scienceKeycard
  deriving DecidableEq

namespace Upgrade

/-- Every member, in order of declaration. -/
def all : List Upgrade :=
  [.scienceKeycard]

/-- The name of a member. -/
def name : Upgrade → String
  | scienceKeycard => "ScienceKeycard"

/-- The member of a name. -/
def named? (name : String) : Option Upgrade := all.find? (·.name == name)

end Upgrade

/-- The identity of an item. -/
inductive ItemId
  | useItem (item : UseItem)
  | relic (relic : Relic)
  | orb (orb : Orb) (slot : OrbSlot)
  | equipment (equipment : Equipment)
  | familiar (familiar : Familiar)
  | stat (stat : Stat)
  | upgrade (upgrade : Upgrade)
  deriving DecidableEq

/-- The name under which an item is shown. -/
def ItemId.text : ItemId → String
  | .useItem item => item.name
  | .relic item => item.name
  | .orb element slot => element.name ++ " Orb (" ++ slot.name ++ ")"
  | .equipment item => item.name
  | .familiar item => item.name
  | .stat item => item.name
  | .upgrade item => "Progressive " ++ item.name

end ItemLogic
