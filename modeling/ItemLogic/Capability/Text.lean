import ItemLogic.Capability.Set
import ItemLogic.Fault
import ItemLogic.Text.Split

/-!
# Capability sets as text

A set is written as the abbreviations of its members, in order, with bars
between. It is read from names and abbreviations separated by bars, commas or
plus signs; blanks, empty pieces, repetitions and the case of ASCII letters do
not count.
-/

namespace ItemLogic

/-- The first capability whose name or abbreviation has the letters of the token. -/
def Capability.named? (token : List Char) : Option Capability :=
  Capability.all.find? fun c =>
    Text.sameLetters c.name.toList token || Text.sameLetters c.abbreviation.toList token

namespace CapSet

/-- The abbreviations of the members with bars between; empty for the empty set. -/
def text (s : CapSet) : String := "|".intercalate (s.members.map Capability.abbreviation)

/-- The characters that separate the names of a set. -/
def isSeparator (c : Char) : Bool := c == '|' || c == ',' || c == '+'

/-- The names in a text: its pieces without surrounding blanks, empty ones left out. -/
def tokens (cs : List Char) : List (List Char) :=
  ((Text.split isSeparator cs).map Text.trim).filter (· ≠ [])

/-- Adds the capability that a token names. -/
def addToken (s : CapSet) (token : List Char) : Except Fault CapSet :=
  match Capability.named? token with
  | some c => .ok (s ∪ {c})
  | none => .error (.unknownCapability (String.ofList token))

/-- Reads a set; the fault quotes the first token that names nothing. -/
def parse (text : String) : Except Fault CapSet :=
  (tokens text.toList).foldlM addToken ∅

end CapSet

end ItemLogic
