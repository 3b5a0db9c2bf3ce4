import ItemLogic.Exploration

/-!
# Verdicts

Whether a placement can be finished. Two rules are checked before exploration:
where the gas of the Maw is harmless the gas mask has to be collectable with what
the Maw itself asks for, away from the levels that lead back to it; and no room
holds two copies of one item found in stages.
-/

namespace ItemLogic

/-- The outcome of checking a placement. -/
inductive Verdict
  | completable
  /-- Exploration stops growing before the goal opens. -/
  | stuck
  /-- Two locations of one room hold copies of one item found in stages. -/
  | sharedRoom
  /-- The gas mask lies where the rules of the Maw do not allow it. -/
  | gasMaskOutOfReach
  deriving DecidableEq

/-- The sentence that reports a verdict. -/
def Verdict.text : Verdict → String
  | completable => "completable"
  | stuck => "not completable, progression gets stuck"
  | sharedRoom => "invalid, progressive items of one kind share a room"
  | gasMaskOutOfReach => "invalid, gas mask is out of reach for the Maw"

namespace Atlas

/-- Whether the goal opens in some round of a fresh player. -/
def reachesGoal (a : Atlas) : Bool := a.freshAscent.any fun held => a.goal.opens (a.obtained held)

/-- A copy of an item found in stages that lies in the room of an earlier copy. -/
structure Clash where
  id : ItemId
  earlier : Key
  later : Key

/-- The first clash, given the rooms in which copies have been seen so far. -/
def clashAmong : List (ItemId × Key) → List Location → Option Clash
  | _, [] => none
  | seen, l :: rest =>
    match l.item with
    | some (.progressive id _) =>
      match seen.find? fun (other, key) => other = id && key.toRoom = l.key.toRoom with
      | some (_, earlier) =>
        if earlier = l.key then clashAmong ((id, l.key) :: seen) rest
        else some ⟨id, earlier, l.key⟩
      | none => clashAmong ((id, l.key) :: seen) rest
    | _ => clashAmong seen rest

/-- The first clash of the atlas. -/
def clash? (a : Atlas) : Option Clash := clashAmong [] a.locations

/-- The first location that holds the gas mask. -/
def gasMask? (a : Atlas) : Option Location :=
  a.locations.find? fun l => l.item.any fun item => item.id = .relic .airMask

/-- What a player who has come to the Maw can be relied on to hold. -/
def mawRequirements (a : Atlas) : CapSet :=
  if a.options.inverted then {.swimming} ∪ a.unlocks.pyramidKeys else {.gateAccessToPast}

/-- The levels in which the gas mask may lead back to the Maw: Lake Desolation, and
    unless the game is inverted the library and the sealed caves. -/
def levelsToAvoid (a : Atlas) : List Int32 := if a.options.inverted then [1] else [1, 2, 9]

/-- Whether the gas mask at a location can be had before the Maw. -/
def inReachOfMaw (a : Atlas) (l : Location) : Bool :=
  !a.levelsToAvoid.contains l.key.level && l.gate.opens a.mawRequirements

/-- Whether the gas mask is there and can be had before the Maw. -/
def gasMaskInReach (a : Atlas) : Bool := a.gasMask?.any a.inReachOfMaw

/-- The verdict on the atlas. -/
def verdict (a : Atlas) : Verdict :=
  if !a.options.gasMaw && !a.gasMaskInReach then .gasMaskOutOfReach
  else if a.clash?.isSome then .sharedRoom
  else if a.reachesGoal then .completable
  else .stuck

/-- Whether the goal can be reached and no rule is broken. -/
def isCompletable (a : Atlas) : Bool := a.verdict = .completable

end Atlas

end ItemLogic
