import ItemLogic.Draw.Uniform
import ItemLogic.Item.Basic
import ItemLogic.Options
import ItemLogic.Seed

/-!
# Catalogs

A catalog gives the item of each identity. The standard one follows a fixed table
of unlocks, but for the pyramid keys, which open one teleporter gate drawn from
the seed, and for the keycards, which may be found in stages.
-/

namespace ItemLogic

/-- What identities unlock in one game: a fixed table, and the pyramid keys' gate. -/
structure Unlocks where
  seed : Seed
  pyramidKeys : CapSet
  deriving DecidableEq

namespace Unlocks

/-- The teleporter gates in the past. -/
def pastGates : List Capability :=
  [.gateLakeSereneLeft, .gateLakeSereneRight, .gateAccessToPast, .gateCastleRamparts,
   .gateCastleKeep, .gateRoyalTowers, .gateMaw, .gateCavesOfBanishment]

/-- The teleporter gates in the present. -/
def presentGates : List Capability :=
  [.gateKittyBoss, .gateLeftLibrary, .gateMilitaryGate, .gateSealedCaves,
   .gateSealedSirensCave, .gateLakeDesolation]

/-- The mask that keeps this draw apart from others of the same seed. -/
def drawMask : UInt64 := 0x5059524B

/-- The unlocks of a seed. The pyramid keys open a gate of the era that the game
    does not start in: the past normally, the present when inverted. -/
def ofSeed (seed : Seed) (options : Options) : Unlocks :=
  let gates := if options.inverted then presentGates else pastGates
  let gate := (Draw.choose? gates (seed.value.toUInt64 ^^^ drawMask)).getD .gateAccessToPast
  ⟨seed, {gate}⟩

/-- The set that an identity unlocks. -/
def grantedBy (unlocks : Unlocks) : ItemId → CapSet
  | .relic .timespinnerWheel => {.timespinnerWheel, .timeStop}
  | .relic .doubleJump => {.doubleJump, .timeStop}
  | .relic .dash => {.forwardDash}
  | .relic .essenceOfSpace => {.upwardDash, .doubleJump, .timeStop}
  | .relic .scienceKeycardA => {.cardA, .cardB, .cardC, .cardD}
  | .relic .scienceKeycardB => {.cardB, .cardC, .cardD}
  | .relic .scienceKeycardC => {.cardC, .cardD}
  | .relic .scienceKeycardD => {.cardD}
  | .relic .scienceKeycardV => {.cardV}
  | .relic .elevatorKeycard => {.cardE}
  | .relic .timespinnerSpindle => {.timespinnerSpindle}
  | .relic .timespinnerGear1 => {.timespinnerPiece1}
  | .relic .timespinnerGear2 => {.timespinnerPiece2}
  | .relic .timespinnerGear3 => {.timespinnerPiece3}
  | .relic .waterMask => {.swimming}
  | .relic .airMask => {.gasMask}
  | .relic .tablet => {.tablet}
  | .relic .eyeRing => {.oculusRift}
  | .relic .pyramidsKey => unlocks.pyramidKeys
  | .orb .flame _ => {.antiWeed}
  | .orb .pink .melee => {.pinkOrb}
  | .familiar .kobo => {.kobo}
  | .familiar .merchantCrow => {.merchantCrow}
  | _ => ∅

end Unlocks

/-- The item of each identity. -/
abbrev Catalog := ItemId → Item

namespace Catalog

/-- The keycards as one item in four stages, each of which opens the lower doors too. -/
def stagedKeycard : Item :=
  .progressive (.upgrade .scienceKeycard) <| .ofStages
    [{.cardD}, {.cardD, .cardC}, {.cardD, .cardC, .cardB}, {.cardD, .cardC, .cardB, .cardA}]

/-- Whether a relic is one of the keycards that are merged when found in stages. -/
def isStagedKeycard : Relic → Bool
  | .scienceKeycardA | .scienceKeycardB | .scienceKeycardC | .scienceKeycardD => true
  | _ => false

/-- The catalog of a game: keycards in stages where the options say so, and all
    else by the table. -/
def standard (options : Options) (unlocks : Unlocks) : Catalog
  | .upgrade .scienceKeycard => stagedKeycard
  | .relic relic =>
    if options.progressiveKeycards && isStagedKeycard relic then stagedKeycard
    else .simple (.relic relic) (unlocks.grantedBy (.relic relic))
  | id => .simple id (unlocks.grantedBy id)

end Catalog

end ItemLogic
