/-!
# Capabilities

A capability is something a player is able to do: a movement, a key in hand, a
teleporter that answers. The table below gives each one its place in the 64-bit
word that saves and tools exchange, its full name and its abbreviation. Places
rise with the order of the constructors, so listing capabilities in order of
declaration lists them in order of place.
-/

namespace ItemLogic

/-- The things a player may be able to do, in order of their places in a word. -/
inductive Capability
  | timeStop
  | forwardDash
  | oculusRift
  | antiWeed
  | cardA
  | cardB
  | cardC
  | cardD
  | cardE
  | cardV
  | timespinnerSpindle
  | swimming
  | upwardDash
  | doubleJump
  | gasMask
  | teleport
  | tablet
  | kobo
  | merchantCrow
  | timespinnerPiece1
  | timespinnerPiece2
  | timespinnerPiece3
  | pinkOrb
  | timespinnerWheel
  | gateKittyBoss
  | gateLeftLibrary
  | gateSealedSirensCave
  | gateLakeSereneLeft
  | gateLakeSereneRight
  | gateAccessToPast
  | gateCastleRamparts
  | gateCastleKeep
  | gateRoyalTowers
  | gateMaw
  | gateCavesOfBanishment
  | gateLakeDesolation
  | gateSealedCaves
  | gateMilitaryGate
  deriving DecidableEq

/-- What the table records about one capability. -/
structure CapabilityRow where
  /-- The bit that stands for the capability in a 64-bit word. -/
  place : Nat
  /-- The full name, accepted when a set is read. -/
  name : String
  /-- The abbreviation, accepted when a set is read and used when one is written. -/
  abbreviation : String

namespace Capability

/-- How many capabilities there are. -/
def count : Nat := 38

/-- Every capability, in order of declaration. -/
def all : List Capability :=
  [.timeStop, .forwardDash, .oculusRift, .antiWeed, .cardA, .cardB, .cardC, .cardD,
   .cardE, .cardV, .timespinnerSpindle, .swimming, .upwardDash, .doubleJump, .gasMask,
   .teleport, .tablet, .kobo, .merchantCrow, .timespinnerPiece1, .timespinnerPiece2,
   .timespinnerPiece3, .pinkOrb, .timespinnerWheel, .gateKittyBoss, .gateLeftLibrary,
   .gateSealedSirensCave, .gateLakeSereneLeft, .gateLakeSereneRight, .gateAccessToPast,
   .gateCastleRamparts, .gateCastleKeep, .gateRoyalTowers, .gateMaw,
   .gateCavesOfBanishment, .gateLakeDesolation, .gateSealedCaves, .gateMilitaryGate]

/-- The row of each capability in the table. -/
def row : Capability → CapabilityRow
  | .timeStop => ⟨0, "TimeStop", "TS"⟩
  | .forwardDash => ⟨1, "ForwardDash", "FD"⟩
  | .oculusRift => ⟨2, "OculusRift", "OR"⟩
  | .antiWeed => ⟨3, "AntiWeed", "AW"⟩
  | .cardA => ⟨4, "CardA", "cA"⟩
  | .cardB => ⟨5, "CardB", "cB"⟩
  | .cardC => ⟨6, "CardC", "cC"⟩
  | .cardD => ⟨7, "CardD", "cD"⟩
  | .cardE => ⟨8, "CardE", "cE"⟩
  | .cardV => ⟨9, "CardV", "cV"⟩
  | .timespinnerSpindle => ⟨10, "TimespinnerSpindle", "Spindle"⟩
  | .swimming => ⟨11, "Swimming", "Sw"⟩
  | .upwardDash => ⟨12, "UpwardDash", "UD"⟩
  | .doubleJump => ⟨13, "DoubleJump", "DJ"⟩
  | .gasMask => ⟨14, "GassMask", "Gas"⟩
  | .teleport => ⟨15, "Teleport", "TP"⟩
  | .tablet => ⟨16, "Tablet", "Tablet"⟩
  | .kobo => ⟨17, "Kobo", "Kobo"⟩
  | .merchantCrow => ⟨18, "MerchantCrow", "Crow"⟩
  | .timespinnerPiece1 => ⟨21, "TimespinnerPiece1", "Piece1"⟩
  | .timespinnerPiece2 => ⟨22, "TimespinnerPiece2", "Piece2"⟩
  | .timespinnerPiece3 => ⟨23, "TimespinnerPiece3", "Piece3"⟩
  | .pinkOrb => ⟨25, "PinkOrb", "PO"⟩
  | .timespinnerWheel => ⟨26, "TimespinnerWheel", "Wheel"⟩
  | .gateKittyBoss => ⟨50, "GateKittyBoss", "GateKittyBoss"⟩
  | .gateLeftLibrary => ⟨51, "GateLeftLibrary", "GateLeftLibrary"⟩
  | .gateSealedSirensCave => ⟨52, "GateSealedSirensCave", "GateSealedSirensCave"⟩
  | .gateLakeSereneLeft => ⟨53, "GateLakeSereneLeft", "GateLakeSereneLeft"⟩
  | .gateLakeSereneRight => ⟨54, "GateLakeSereneRight", "GateLakeSereneRight"⟩
  | .gateAccessToPast => ⟨55, "GateAccessToPast", "GateAccessToPast"⟩
  | .gateCastleRamparts => ⟨56, "GateCastleRamparts", "GateCastleRamparts"⟩
  | .gateCastleKeep => ⟨57, "GateCastleKeep", "GateCastleKeep"⟩
  | .gateRoyalTowers => ⟨58, "GateRoyalTowers", "GateRoyalTowers"⟩
  | .gateMaw => ⟨59, "GateMaw", "GateMaw"⟩
  | .gateCavesOfBanishment => ⟨60, "GateCavesOfBanishment", "GateCavesOfBanishment"⟩
  | .gateLakeDesolation => ⟨61, "GateLakeDesolation", "GateLakeDesolation"⟩
  | .gateSealedCaves => ⟨62, "GateSealedCaves", "GateSealedCaves"⟩
  | .gateMilitaryGate => ⟨63, "GateMilitaryGate", "GateMilitaryGate"⟩

/-- The bit that stands for the capability in a 64-bit word. -/
def place (c : Capability) : Nat := c.row.place

/-- The full name. -/
def name (c : Capability) : String := c.row.name

/-- The abbreviation. -/
def abbreviation (c : Capability) : String := c.row.abbreviation

/-- The position of a capability in `all`. -/
def index (c : Capability) : Fin count :=
  ⟨c.ctorIdx, by cases c <;> decide⟩

/-- Every capability is in the table. -/
theorem mem_all (c : Capability) : c ∈ all := by cases c <;> decide

/-- A capability is found in `all` at its own index. -/
theorem getElem?_all_index (c : Capability) : all[c.index.val]? = some c := by
  cases c <;> rfl

/-- Distinct capabilities have distinct indices. -/
theorem index_inj {c d : Capability} : c.index = d.index ↔ c = d := by
  constructor
  · intro same
    have := getElem?_all_index c
    rw [same, getElem?_all_index d] at this
    exact (Option.some.inj this).symm
  · rintro rfl
    rfl

/-- Every index belongs to a capability. -/
theorem exists_index (i : Fin count) : ∃ c : Capability, c.index = i := by
  have found : ∀ i : Fin count, ∃ c ∈ all, c.index = i := by decide
  obtain ⟨c, _, same⟩ := found i
  exact ⟨c, same⟩

end Capability

end ItemLogic
