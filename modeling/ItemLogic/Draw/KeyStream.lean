/-!
# The ChaCha key stream

The words of the ChaCha stream cipher with twelve rounds, for a 256-bit key, a
zero nonce and a 64-bit block counter that starts at zero.
-/

namespace ItemLogic.Draw

/-- The sixteen words that a block is computed on. -/
abbrev Block := Vector UInt32 16

/-- Rotates a word to the left. -/
def rotateLeft (x n : UInt32) : UInt32 := (x <<< n) ||| (x >>> (32 - n))

/-- Mixes four words of a block. -/
def quarterRound (s : Block) (a b c d : Fin 16) : Block :=
  let s := s.set a (s[a] + s[b])
  let s := s.set d (rotateLeft (s[d] ^^^ s[a]) 16)
  let s := s.set c (s[c] + s[d])
  let s := s.set b (rotateLeft (s[b] ^^^ s[c]) 12)
  let s := s.set a (s[a] + s[b])
  let s := s.set d (rotateLeft (s[d] ^^^ s[a]) 8)
  let s := s.set c (s[c] + s[d])
  s.set b (rotateLeft (s[b] ^^^ s[c]) 7)

/-- One round over the columns and one over the diagonals. -/
def doubleRound (s : Block) : Block :=
  let s := quarterRound s 0 4 8 12
  let s := quarterRound s 1 5 9 13
  let s := quarterRound s 2 6 10 14
  let s := quarterRound s 3 7 11 15
  let s := quarterRound s 0 5 10 15
  let s := quarterRound s 1 6 11 12
  let s := quarterRound s 2 7 8 13
  quarterRound s 3 4 9 14

/-- The start of a block: the constant words, the key, the counter and the nonce. -/
def startBlock (key : Vector UInt32 8) (counter : UInt64) : Block :=
  let constants : Vector UInt32 4 := #v[0x61707865, 0x3320646e, 0x79622d32, 0x6b206574]
  let position : Vector UInt32 4 := #v[counter.toUInt32, (counter >>> 32).toUInt32, 0, 0]
  constants ++ key ++ position

/-- The sixteen words of the stream that belong to a value of the counter. -/
def streamBlock (key : Vector UInt32 8) (counter : UInt64) : List UInt32 :=
  let start := startBlock key counter
  let mixed := (List.range 6).foldl (fun s _ => doubleRound s) start
  (Vector.zipWith (· + ·) mixed start).toList

end ItemLogic.Draw
