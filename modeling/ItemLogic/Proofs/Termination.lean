import ItemLogic.Proofs.Waves
import ItemLogic.Verdict

/-!
# Exploration ends

Exploration is a loop three times: for a closure, for the goal, and for the waves of a log. In a
round the step of the held set is obtained once, and the loop ends in the round in which the set
stays as it is; the search for the goal also ends when the goal opens. Nothing in such a loop
counts rounds. `RunsThrough` says what it does without a bound; a loop that never ends has no run.

The three loops have a run each, on every atlas. Their step rises from their start, so every
round but the last gains a capability, and there are only so many. The ascents by which an atlas
is explored allow for that number of rounds, which is therefore no limit: an ascent is the run.

Two of the loops give the held set back for the obtained one. What keeps these from going round
in circles is their start: nothing lies below the set that holds nothing.
-/

namespace ItemLogic

/-- A set is strictly inside another. -/
instance : HasSSubset CapSet := ⟨fun s t => s ⊆ t ∧ s ≠ t⟩

/-- Whether a round leaves the held set as it is. -/
def AtRest (held next : CapSet) : Prop := next = held

/-- The sets with which a loop enters its rounds, one for each. A round takes the step of the held
    set; it is the last one if the two sets say so, and otherwise the next round is entered with
    the new set. -/
inductive RunsThrough (step : CapSet → CapSet) (ends : CapSet → CapSet → Prop) :
    CapSet → List CapSet → Prop
  | last {held : CapSet} (met : ends held (step held)) : RunsThrough step ends held [held]
  | round {held : CapSet} {rest : List CapSet} (going : ¬ ends held (step held))
      (later : RunsThrough step ends (step held) rest) : RunsThrough step ends held (held :: rest)

namespace RunsThrough

variable {step : CapSet → CapSet} {ends : CapSet → CapSet → Prop} {held : CapSet}
  {visited : List CapSet}

/-- A run begins with the set from which the loop starts. -/
theorem exists_cons (run : RunsThrough step ends held visited) : ∃ rest, visited = held :: rest := by
  cases run with
  | last met => exact ⟨[], rfl⟩
  | round going later => exact ⟨_, rfl⟩

/-- A loop has no two runs. -/
theorem unique (run : RunsThrough step ends held visited) {other : List CapSet}
    (again : RunsThrough step ends held other) : other = visited := by
  induction run generalizing other with
  | last met =>
    cases again with
    | last _ => rfl
    | round going _ => exact absurd met going
  | round going _ ih =>
    cases again with
    | last met => exact absurd met going
    | round _ later => rw [ih later]

/-- The last round of a run meets the condition for ending. -/
theorem exists_getLast? (run : RunsThrough step ends held visited) :
    ∃ final, visited.getLast? = some final ∧ ends final (step final) := by
  induction run with
  | last met => exact ⟨_, rfl, met⟩
  | round _ later ih =>
    obtain ⟨final, last, met⟩ := ih
    exact ⟨final, by rw [List.getLast?_cons, last]; rfl, met⟩

/-- A round that is not the last gains a capability, where the step rises and the loop ends at
    rest. -/
theorem gains (rising : Rising step held) (rests : ∀ s, ends s s)
    (going : ¬ ends held (step held)) : held ⊂ step held := by
  refine ⟨rising.grows, fun rest => going ?_⟩
  rw [← rest]
  exact rests held

/-- The held set of a rising loop grows strictly from one round to the next. -/
theorem isChain (run : RunsThrough step ends held visited) (rising : Rising step held)
    (rests : ∀ s, ends s s) : visited.IsChain (· ⊂ ·) := by
  induction run with
  | last _ => exact .singleton _
  | round going later ih =>
    obtain ⟨rest, rfl⟩ := later.exists_cons
    exact List.isChain_cons_cons.mpr ⟨gains rising rests going, ih rising.next⟩

/-- A rising loop takes at most one round more than there are capabilities to gain. -/
theorem length_le (run : RunsThrough step ends held visited) (rising : Rising step held)
    (rests : ∀ s, ends s s) : visited.length + held.size ≤ Capability.count + 1 := by
  induction run with
  | @last held _ =>
    have bound := held.size_le
    simp only [List.length_singleton]
    omega
  | round going later ih =>
    obtain ⟨contained, distinct⟩ := gains rising rests going
    have growth := CapSet.size_lt_of_subset_of_ne contained distinct
    have bound := ih rising.next
    simp only [List.length_cons]
    omega

end RunsThrough

variable {step : CapSet → CapSet} {ends : CapSet → CapSet → Prop} {held : CapSet}

/-- A rising loop that ends at rest has a run. Rounds can go on only while capabilities are
    missing, so the induction is on their number. -/
theorem exists_runsThrough (rising : Rising step held) (rests : ∀ s, ends s s) :
    ∃ visited, RunsThrough step ends held visited := by
  generalize missing : Capability.count - held.size = number
  induction number using Nat.strong_induction_on generalizing held with
  | h number ih =>
    by_cases met : ends held (step held)
    · exact ⟨[held], .last met⟩
    · obtain ⟨contained, distinct⟩ := RunsThrough.gains rising rests met
      have growth := CapSet.size_lt_of_subset_of_ne contained distinct
      have bound := (step held).size_le
      obtain ⟨rest, later⟩ := ih _ (by omega) rising.next rfl
      exact ⟨held :: rest, .round met later⟩

/-- An ascent that allows for as many rounds as a run takes is the run. -/
theorem RunsThrough.ascentWithin_eq {visited : List CapSet}
    (run : RunsThrough step AtRest held visited) {fuel : Nat} (enough : visited.length ≤ fuel + 1) :
    ascentWithin step fuel held = visited := by
  induction run generalizing fuel with
  | @last held met =>
    cases fuel with
    | zero => rfl
    | succ fuel => exact if_pos met
  | @round held rest going later ih =>
    obtain ⟨more, rfl⟩ := later.exists_cons
    simp only [List.length_cons] at enough
    obtain ⟨fuel, rfl⟩ : ∃ less, fuel = less + 1 := ⟨fuel - 1, by omega⟩
    have moving : ¬ step held = held := going
    rw [ascentWithin, if_neg moving, ih (by simpa using enough)]

/-- A search that goes through an ascent for a set whose step passes a test answers as the loop
    does that ends where the test is passed: with what the test says in the last round. -/
theorem RunsThrough.any_ascentWithin {passes : CapSet → Bool} {visited : List CapSet}
    {final : CapSet}
    (run : RunsThrough step (fun held next => passes next = true ∨ AtRest held next) held visited)
    (last : visited.getLast? = some final) {fuel : Nat} (enough : visited.length ≤ fuel + 1) :
    ((ascentWithin step fuel held).any fun s => passes (step s)) = passes (step final) := by
  induction run generalizing fuel with
  | @last held met =>
    obtain rfl : held = final := Option.some.inj last
    cases fuel with
    | zero => simp [ascentWithin]
    | succ fuel =>
      rw [ascentWithin]
      split
      · simp
      · rename_i moving
        have passed : passes (step held) = true := met.resolve_right moving
        simp [passed]
  | @round held rest going later ih =>
    obtain ⟨failed, moving⟩ := not_or.mp going
    obtain ⟨more, rfl⟩ := later.exists_cons
    rw [List.getLast?_cons_cons] at last
    simp only [List.length_cons] at enough
    obtain ⟨fuel, rfl⟩ : ∃ less, fuel = less + 1 := ⟨fuel - 1, by omega⟩
    have onwards : ¬ step held = held := moving
    rw [ascentWithin, if_neg onwards, List.any_cons, Bool.eq_false_iff.mpr failed, Bool.false_or]
    exact ih last (by simpa using enough)

/-- A loop ends: it has one run, in which every round but the last gains a capability, and which
    is no longer than the number of capabilities that the start lacks, and one. -/
structure EndsAfter (step : CapSet → CapSet) (ends : CapSet → CapSet → Prop) (held : CapSet)
    (visited : List CapSet) : Prop where
  run : RunsThrough step ends held visited
  only : ∀ other, RunsThrough step ends held other → other = visited
  gaining : visited.IsChain (· ⊂ ·)
  bounded : visited.length ≤ CapSet.full.size - held.size + 1

/-- The full set has as many members as there are capabilities. -/
theorem size_full : CapSet.full.size = Capability.count := by decide +kernel

/-- A rising loop ends, whatever else than rest its condition for ending allows. -/
theorem exists_endsAfter (ends : CapSet → CapSet → Prop) (rising : Rising step held)
    (rests : ∀ s, ends s s) : ∃ visited, EndsAfter step ends held visited := by
  obtain ⟨visited, run⟩ := exists_runsThrough rising rests
  refine ⟨visited, run, fun _ => run.unique, run.isChain rising rests, ?_⟩
  have length := run.length_le rising rests
  have bound := held.size_le
  rw [size_full]
  omega

/-- The ascent of a rising step is the run of the loop that ends at rest. -/
theorem endsAfter_ascent (rising : Rising step held) :
    EndsAfter step AtRest held (ascent step held) := by
  obtain ⟨visited, ended⟩ := exists_endsAfter AtRest rising fun _ => rfl
  have length := ended.run.length_le rising fun _ => rfl
  have same : ascent step held = visited := ended.run.ascentWithin_eq (by omega)
  exact same ▸ ended

namespace Atlas

/-- Whether the search for the goal ends in a round: the goal opens, or nothing was gained. -/
def GoalSettled (a : Atlas) (held next : CapSet) : Prop :=
  a.goal.opens next = true ∨ AtRest held next

/-- The search for the goal answers with what its last round says of the goal. -/
theorem reachesGoal_of_runsThrough {a : Atlas} {visited : List CapSet} {final : CapSet}
    (run : RunsThrough a.obtained a.GoalSettled ∅ visited) (last : visited.getLast? = some final) :
    a.reachesGoal = a.goal.opens (a.obtained final) := by
  have length := run.length_le a.rising_obtained fun _ => .inr rfl
  exact run.any_ascentWithin last (by omega)

/-- The three loops end on the atlas of any history, whatever its goal. The one for a closure ends
    with the closure, after one round more than there are capabilities besides the initial ones
    at most. The search for the goal answers as it should in its last round, and the log has
    one wave for each round but for empty ones at its end; both loops start with nothing and take
    one round more than there are capabilities at most. -/
theorem exploration_ends (unlocks : Unlocks) (options : Options) (history : List Change)
    (goal : Gate) (initial : CapSet) :
    let a := (ofHistory unlocks options history).withGoal goal
    (∃ visited, EndsAfter (a.step initial) AtRest initial visited ∧
        visited.getLast? = some (a.closure initial)) ∧
      (∃ visited final, EndsAfter a.obtained a.GoalSettled ∅ visited ∧
        visited.getLast? = some final ∧ a.reachesGoal = goal.opens (a.obtained final) ∧
        visited.length ≤ CapSet.full.size + 1) ∧
      (∃ visited, EndsAfter a.obtained AtRest ∅ visited ∧ a.rounds = a.wavesAlong none visited ∧
        a.waves.length ≤ visited.length ∧ visited.length ≤ CapSet.full.size + 1) ∧
      CapSet.full.size = 38 := by
  intro a
  refine ⟨?_, ?_, ?_, size_full⟩
  · refine ⟨_, endsAfter_ascent (a.rising_step initial), ?_⟩
    rw [List.getLast?_eq_getElem?]
    exact ascent_getElem?_summit _ _
  · obtain ⟨visited, ended⟩ :=
      exists_endsAfter a.GoalSettled a.rising_obtained fun _ => .inr rfl
    obtain ⟨final, last, _⟩ := ended.run.exists_getLast?
    refine ⟨visited, final, ended, last, reachesGoal_of_runsThrough ended.run last, ?_⟩
    exact Nat.le_trans ended.bounded (Nat.succ_le_succ (Nat.sub_le _ _))
  · have ended := endsAfter_ascent a.rising_obtained
    have waves := (take_waves (Nat.le_refl a.waves.length)).1
    rw [length_rounds] at waves
    refine ⟨a.freshAscent, ended, rfl, waves, ?_⟩
    exact Nat.le_trans ended.bounded (Nat.succ_le_succ (Nat.sub_le _ _))

end Atlas

end ItemLogic
