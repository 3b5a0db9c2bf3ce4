import ItemLogic.Atlas

/-!
# Exploration

What a player comes to hold. Items of one step are granted together; copies of an
item found in stages are counted, and the shared chain is walked that many steps
on a copy, so that no question disturbs a session. Repeating the step from a held
set gives the ascent, which ends at the first set that grants nothing new.
-/

namespace ItemLogic

/-- The sets that a step gives one after the other, from `held` up to the first
    that the step does not change, looking at no more than `fuel` sets after it. -/
def ascentWithin (step : CapSet → CapSet) : Nat → CapSet → List CapSet
  | 0, held => [held]
  | fuel + 1, held =>
    if step held = held then [held] else held :: ascentWithin step fuel (step held)

/-- The sets that a step gives one after the other. A step that only ever adds
    capabilities comes to rest after as many changes as there are capabilities. -/
def ascent (step : CapSet → CapSet) (held : CapSet) : List CapSet :=
  ascentWithin step Capability.count held

namespace Atlas

/-- The number of locations in a list that hold a copy of an item found in stages. -/
def copies (locations : List Location) (id : ItemId) : Nat :=
  locations.countP fun l => l.item.any fun item => item.isProgressive && item.id = id

/-- What an item grants when all locations of a list are collected: its unlocks,
    or what the copies of it in the list make of the shared chain. A copy walks its own
    chain where there is no shared one, which cannot arise in an atlas that was made by
    adding and placing: these register the chain of every copy. -/
def grantAmong (a : Atlas) (locations : List Location) : Item → CapSet
  | .simple _ unlocks => unlocks
  | .progressive id chain => ((a.chain? id).getD chain).unlockedBy (copies locations id)

/-- What the locations of a list grant together. -/
def granted (a : Atlas) (locations : List Location) : CapSet :=
  .unionAll ((locations.filterMap (·.item)).map (a.grantAmong locations))

/-- What the locations that are reachable with a held set grant; the set itself
    is not part of it. -/
def obtained (a : Atlas) (held : CapSet) : CapSet := a.granted (a.reachable held)

/-- What the picked-up locations grant, reachable or not. -/
def available (a : Atlas) : CapSet := a.granted (a.locations.filter (·.pickedUp))

/-- One step of exploration that keeps hold of an initial set. -/
def step (a : Atlas) (initial held : CapSet) : CapSet := initial ∪ a.obtained held

/-- Everything that a player who starts with `initial` can come to hold. -/
def closure (a : Atlas) (initial : CapSet) : CapSet :=
  (ascent (a.step initial) initial).getLastD initial

/-- The held sets of a fresh player, each obtained with the one before. -/
def freshAscent (a : Atlas) : List CapSet := ascent a.obtained ∅

/-- The keys that become reachable between two held sets, of locations that hold
    progression, in order; with nothing before, all that are reachable. -/
def wave (a : Atlas) (before : Option CapSet) (held : CapSet) : List Key :=
  let known := (before.elim [] a.reachableProgression).map (·.key)
  ((a.reachableProgression held).map (·.key)).filter fun key => !known.contains key

/-- The wave of each held set of an ascent. -/
def wavesAlong (a : Atlas) : Option CapSet → List CapSet → List (List Key)
  | _, [] => []
  | before, held :: rest => a.wave before held :: wavesAlong a (some held) rest

/-- The waves of a fresh player, one for each round, the last ones possibly empty. -/
def rounds (a : Atlas) : List (List Key) := a.wavesAlong none a.freshAscent

/-- Leaves out the empty lists at the end. -/
def trimEmpty (waves : List (List Key)) : List (List Key) :=
  (waves.reverse.dropWhile List.isEmpty).reverse

/-- The progression of a fresh player: every location of a wave is reachable with
    what the earlier waves grant. -/
def waves (a : Atlas) : List (List Key) := trimEmpty a.rounds

end Atlas

end ItemLogic
