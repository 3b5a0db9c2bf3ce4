import ItemLogic.Capability.Text

/-!
# Gates

A gate is a list of clauses, each a set of capabilities, and opens to a player
who holds all of some clause. Disjunction appends clauses. Conjunction with one
clause joins it to every clause; the conjunction of two gates of several clauses
is their product, ordered by size and without the clauses that contain an
earlier one. Clauses are kept in order because the order is written out.
-/

namespace ItemLogic

/-- Alternative sets of capabilities, any one of which opens the gate. -/
structure Gate where
  clauses : List CapSet
  deriving DecidableEq

namespace Gate

/-- The gate that is always open. -/
def free : Gate := ⟨[∅]⟩

/-- The gate that asks for every capability of a set. -/
def needs (s : CapSet) : Gate := ⟨[s]⟩

/-- The gate that asks for some capability of a set; always open when the set is empty. -/
def anyOf (s : CapSet) : Gate := if s = ∅ then free else ⟨s.decompose⟩

/-- Whether a player who holds `held` passes. -/
def opens (g : Gate) (held : CapSet) : Bool := g.clauses.any (· ⊆ held)

/-- The gate that asks for a set on top of what it asks for already. -/
def requiring (g : Gate) (s : CapSet) : Gate := ⟨g.clauses.map (· ∪ s)⟩

/-- The gate that either of two gates opens. -/
def or (g h : Gate) : Gate := ⟨g.clauses ++ h.clauses⟩

/-- The unions of a clause of each side, the left side outermost. -/
def product (left right : List CapSet) : List CapSet :=
  left.flatMap fun a => right.map fun b => a ∪ b

/-- The clauses in order of size, those of one size in the order they came in. -/
def bySize (clauses : List CapSet) : List CapSet :=
  let sized := clauses.map fun c => (c.size, c)
  (List.range (Capability.count + 1)).flatMap fun n =>
    sized.filterMap fun p => if p.1 = n then some p.2 else none

/-- Keeps a clause unless it contains one that is already kept. -/
def keepIfNew (kept : List CapSet) (clause : CapSet) : List CapSet :=
  if kept.any (· ⊆ clause) then kept else kept ++ [clause]

/-- The clauses in order of size, without those that contain an earlier one. -/
def absorb (clauses : List CapSet) : List CapSet := (bySize clauses).foldl keepIfNew []

/-- The gate that asks for both of two gates. -/
def and (g h : Gate) : Gate :=
  match g.clauses, h.clauses with
  | _, [single] => g.requiring single
  | [single], _ => h.requiring single
  | left, right => ⟨absorb (product left right)⟩

instance : OrOp Gate := ⟨Gate.or⟩

instance : AndOp Gate := ⟨Gate.and⟩

/-- One clause as text. -/
def clauseText (clause : CapSet) : String :=
  if clause = ∅ then "(none)" else "(" ++ clause.text ++ ")"

/-- The clauses as text, with the word `or` between. -/
def text (g : Gate) : String := " or ".intercalate (g.clauses.map clauseText)

end Gate

end ItemLogic
