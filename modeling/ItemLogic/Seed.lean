import ItemLogic.Fault
import ItemLogic.Text.Split

/-!
# Seeds

A seed is a 32-bit word. It is shown as eight capital hexadecimal digits and read
from any run of hexadecimal digits whose value fits, whatever its leading zeros.
-/

namespace ItemLogic

/-- The word that the random part of a game is drawn from. -/
structure Seed where
  value : UInt32
  deriving DecidableEq

namespace Seed

/-- Eight capital hexadecimal digits. -/
def text (seed : Seed) : String := String.ofList (Text.paddedHexadecimal 8 seed.value.toNat)

/-- The seed that a text denotes, blanks around it left out of account. -/
def ofText? (text : String) : Option Seed :=
  match Text.hexadecimal? (Text.trim text.toList) with
  | some value => if value < UInt32.size then some ⟨UInt32.ofNat value⟩ else none
  | none => none

/-- Reads a seed; the fault quotes the text as it was given. -/
def parse (text : String) : Except Fault Seed :=
  match ofText? text with
  | some seed => .ok seed
  | none => .error (.invalidSeed text)

end Seed

end ItemLogic
