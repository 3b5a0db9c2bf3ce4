import ItemLogic.Gate.Basic

/-!
# Gate formulas

Wiring is written with two sorts of operand, sets and gates. Two sets under `or`
are united, so that the result asks for both; with a gate on either side `or` is
an alternative. `Formula.gate` builds the gate of a formula and `Formula.reads`
says, clause lists apart, to whom it should open.
-/

namespace ItemLogic

/-- A wiring formula over sets and gates. -/
inductive Formula
  /-- A set of capabilities, all asked for. -/
  | caps (s : CapSet)
  /-- A gate built elsewhere. -/
  | given (g : Gate)
  /-- The gate that is always open. -/
  | always
  /-- The gate that asks for one capability of a set. -/
  | anyOf (s : CapSet)
  /-- An operand taken as a gate. -/
  | lift (f : Formula)
  | or (f g : Formula)
  | and (f g : Formula)

/-- What a formula evaluates to: a set as long as only sets are united, else a gate. -/
inductive Operand
  | caps (s : CapSet)
  | gate (g : Gate)

namespace Operand

/-- The operand as a gate; a set becomes its one clause. -/
def toGate : Operand → Gate
  | caps s => .needs s
  | gate g => g

/-- Unites two sets, and otherwise appends the clauses of the right side. -/
def or : Operand → Operand → Operand
  | caps s, caps t => caps (s ∪ t)
  | f, g => gate (f.toGate.or g.toGate)

/-- Adds a set to each clause of the other side, and otherwise conjoins gates. -/
def and : Operand → Operand → Operand
  | caps s, caps t => gate (.needs (s ∪ t))
  | gate g, caps s => gate (g.requiring s)
  | caps s, gate g => gate (g.requiring s)
  | gate g, gate h => gate (g.and h)

end Operand

namespace Formula

/-- The operand that a formula evaluates to. -/
def value : Formula → Operand
  | caps s => .caps s
  | given g => .gate g
  | always => .gate .free
  | anyOf s => .gate (.anyOf s)
  | lift f => .gate f.value.toGate
  | or f g => f.value.or g.value
  | and f g => f.value.and g.value

/-- The gate that a formula builds. -/
def gate (f : Formula) : Gate := f.value.toGate

/-- Whether a formula evaluates to a set. -/
def isCaps : Formula → Bool
  | caps _ => true
  | or f g => f.isCaps && g.isCaps
  | _ => false

/-- Whether a player who holds `held` should pass, read off the formula. -/
def reads (held : CapSet) : Formula → Bool
  | caps s => s ⊆ held
  | given g => g.opens held
  | always => true
  | anyOf s => s = ∅ || Capability.all.any fun c => c ∈ s && c ∈ held
  | lift f => f.reads held
  | or f g =>
    if f.isCaps && g.isCaps then f.reads held && g.reads held
    else f.reads held || g.reads held
  | and f g => f.reads held && g.reads held

end Formula

end ItemLogic
