import ItemLogic.Draw.KeyStream

/-!
# Uniform draws

A number below a bound is drawn from a 64-bit state: the state is expanded to the
key of a key stream, and of the stream's words the first one is taken whose
product with the bound leaves a low half inside the acceptance zone. The zone is
a multiple of the bound, so every result has the same number of words.
-/

namespace ItemLogic.Draw

/-- The next state of the linear congruential generator that keys are expanded with. -/
def nextState (state : UInt64) : UInt64 := state * 6364136223846793005 + 11634580027462260723

/-- The word that a state yields: its folded high bits, rotated by the highest ones. -/
def stateWord (state : UInt64) : UInt32 :=
  let folded := (((state >>> 18) ^^^ state) >>> 27).toUInt32
  let amount := (state >>> 59).toUInt32
  (folded >>> amount) ||| (folded <<< ((32 - amount) % 32))

/-- The key of a state: the words of the next eight states. -/
def expandKey (state : UInt64) : Vector UInt32 8 :=
  (Vector.range 8).map fun i => stateWord (Nat.repeat nextState (i + 1) state)

/-- The largest low half that is accepted for a bound: one below the greatest
    product of the bound with a power of two that fits a word. -/
def acceptanceZone (bound : Nat) : Nat := (bound <<< (31 - bound.log2)) - 1

/-- The number below the bound that a word stands for, if its low half is accepted. -/
def accept? (bound : Nat) (word : UInt32) : Option Nat :=
  let wide := word.toNat * bound
  if wide % UInt32.size ≤ acceptanceZone bound then some (wide / UInt32.size) else none

/-- The first accepted word of a number of blocks of the stream. -/
def firstAccepted (key : Vector UInt32 8) (bound : Nat) : Nat → UInt64 → Option Nat
  | 0, _ => none
  | blocks + 1, counter =>
    match (streamBlock key counter).findSome? (accept? bound) with
    | some index => some index
    | none => firstAccepted key bound blocks (counter + 1)

/-- A number below the bound, drawn from a state. The stream is searched for its
    whole period. -/
def below? (bound : Nat) (state : UInt64) : Option Nat :=
  firstAccepted (expandKey state) bound UInt64.size 0

/-- An entry of a list, drawn from a state. -/
def choose? {α : Type} (entries : List α) (state : UInt64) : Option α :=
  (below? entries.length state).bind fun index => entries[index]?

end ItemLogic.Draw
