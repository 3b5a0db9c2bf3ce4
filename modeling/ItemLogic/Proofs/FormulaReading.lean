import ItemLogic.Gate.Formula
import ItemLogic.Gate.Lemmas

/-!
# Gates open as their formulas read

The gate that a formula builds opens to exactly those to whom the formula reads open. Two
sets under `or` are united and so both asked for, while with a gate on either side `or` is
an alternative; the induction therefore carries along of which sort each operand is.

Conjunction is built in three ways, by adding a set to every clause of the one or the other
side or by a product without the clauses that contain an earlier one. All three are the
conjunction of the readings.
-/

namespace ItemLogic

namespace Operand

/-- Whether an operand is a set. -/
def isCaps : Operand → Bool
  | caps _ => true
  | gate _ => false

/-- Two sets under `or` are both asked for, and otherwise either side opens. -/
theorem opens_or (x y : Operand) (held : CapSet) :
    (x.or y).toGate.opens held =
      if x.isCaps && y.isCaps then x.toGate.opens held && y.toGate.opens held
      else x.toGate.opens held || y.toGate.opens held := by
  have appended (g h : Gate) : (g.or h).opens held = (g.opens held || h.opens held) :=
    Gate.opens_or g h held
  cases x <;> cases y <;> simp [or, toGate, isCaps, appended]

/-- Under `and` both sides have to open, of whatever sort they are. -/
theorem opens_and (x y : Operand) (held : CapSet) :
    (x.and y).toGate.opens held = (x.toGate.opens held && y.toGate.opens held) := by
  have conjoined (g h : Gate) : (g.and h).opens held = (g.opens held && h.opens held) :=
    Gate.opens_and g h held
  cases x <;> cases y <;> simp [and, toGate, conjoined, Bool.and_comm]

end Operand

namespace Formula

/-- A formula reads as a set exactly when it evaluates to one. -/
theorem isCaps_value (f : Formula) : f.value.isCaps = f.isCaps := by
  induction f with
  | caps s => rfl
  | given g => rfl
  | always => rfl
  | anyOf s => rfl
  | lift f => rfl
  | or f g first second =>
    rw [isCaps, ← first, ← second, value]
    cases f.value <;> cases g.value <;> rfl
  | and f g =>
    change (f.value.and g.value).isCaps = false
    cases f.value <;> cases g.value <;> rfl

/-- The gates built elsewhere that a formula takes in. -/
def givenGates : Formula → List Gate
  | given g => [g]
  | lift f => f.givenGates
  | or f g => f.givenGates ++ g.givenGates
  | and f g => f.givenGates ++ g.givenGates
  | _ => []

/-- The gate of a formula opens to those to whom the formula reads open. -/
theorem opens_gate (f : Formula) (held : CapSet) : f.gate.opens held = f.reads held := by
  induction f with
  | caps s => exact Gate.opens_needs s held
  | given g => rfl
  | always => exact Gate.opens_free held
  | anyOf s =>
    rw [Bool.eq_iff_iff]
    refine Gate.opens_anyOf.trans ?_
    simp [reads, Capability.mem_all]
  | lift f ih => exact ih
  | or f g first second =>
    refine (Operand.opens_or f.value g.value held).trans ?_
    rw [isCaps_value, isCaps_value]
    rw [gate] at first second
    rw [first, second, reads]
  | and f g first second =>
    refine (Operand.opens_and f.value g.value held).trans ?_
    rw [gate] at first second
    rw [first, second, reads]

/-- A player who holds everything is let through by every formula over gates with clauses. -/
theorem reads_full (f : Formula) (filled : ∀ g ∈ f.givenGates, g.clauses ≠ []) :
    f.reads .full = true := by
  induction f with
  | caps s => simp [reads]
  | given g => exact Gate.opens_full_iff.mpr (filled g (List.mem_singleton_self g))
  | always => rfl
  | anyOf s =>
    by_cases nothing : s = ∅
    · simp [reads, nothing]
    · obtain ⟨c, member⟩ := CapSet.exists_mem_of_ne_empty nothing
      have shared : ∃ c : Capability, c ∈ s := ⟨c, member⟩
      simp [reads, Capability.mem_all, shared]
  | lift f ih => exact ih filled
  | or f g first second =>
    obtain ⟨left, right⟩ := List.forall_mem_append.mp filled
    simp [reads, first left, second right]
  | and f g first second =>
    obtain ⟨left, right⟩ := List.forall_mem_append.mp filled
    simp [reads, first left, second right]

/-- Whatever a formula is written with, its gate opens to exactly those to whom it reads
    open, and leaving out clauses that contain an earlier one never changes who passes. As
    long as the gates built elsewhere have a clause, so has the gate of the formula, and it
    opens to a player who holds everything. -/
theorem gate_opens_as_read (f : Formula) :
    (∀ held, f.gate.opens held = f.reads held) ∧
      (∀ clauses held,
        (⟨Gate.absorb clauses⟩ : Gate).opens held = (⟨clauses⟩ : Gate).opens held) ∧
      ((∀ g ∈ f.givenGates, g.clauses ≠ []) →
        f.gate.clauses ≠ [] ∧ f.gate.opens .full = true) := by
  refine ⟨f.opens_gate, Gate.opens_absorb, fun filled => ?_⟩
  have opened : f.gate.opens .full = true := (f.opens_gate .full).trans (f.reads_full filled)
  exact ⟨Gate.opens_full_iff.mp opened, opened⟩

/-- A formula with both meanings of `or`, a gate built elsewhere, and a product of several
    clauses: a card together with a dash, or the gate of the cards, and then a way to swim,
    a card, or stopped time and a card. -/
def cardsThenWater : Formula :=
  .and
    (.or (.lift (.or (.caps {.cardD}) (.caps {.forwardDash}))) (.given (.anyOf {.cardD, .cardE})))
    (.or (.anyOf {.swimming, .cardE}) (.and (.caps {.timeStop}) (.caps {.cardD})))

/-- Of the nine clauses of its product that formula keeps three; its gate opens as it reads
    and to a player who holds everything. -/
theorem cardsThenWater_opens_as_read :
    (∀ g ∈ cardsThenWater.givenGates, g.clauses ≠ []) ∧
      cardsThenWater.gate.clauses = [{.cardE}, {.cardD, .swimming}, {.timeStop, .cardD}] ∧
      cardsThenWater.gate.opens {.cardE} = cardsThenWater.reads {.cardE} ∧
      cardsThenWater.gate.opens {.cardD} = cardsThenWater.reads {.cardD} ∧
      cardsThenWater.gate.opens .full = true := by
  have filled : ∀ g ∈ cardsThenWater.givenGates, g.clauses ≠ [] := by decide
  obtain ⟨agrees, _, opened⟩ := gate_opens_as_read cardsThenWater
  exact ⟨filled, by decide +kernel, agrees _, agrees _, (opened filled).2⟩

end Formula

end ItemLogic
