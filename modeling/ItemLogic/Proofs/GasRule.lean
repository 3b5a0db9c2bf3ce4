import ItemLogic.Proofs.Completion

/-!
# The rule about the gas mask

Where the gas of the Maw is harmless, the gas mask has to lie where a player who has come to
the Maw can have it: away from the levels that lead back to the Maw, and behind a gate that
opens to what the way to the Maw asks for. The check looks at one location, the first that
holds the mask. It decides the rule where the mask lies once. A second mask further down the
list is not looked at and may lie anywhere.
-/

namespace ItemLogic

/-- The location holds the gas mask. -/
def Location.HoldsGasMask (l : Location) : Prop :=
  ∃ item, l.item = some item ∧ item.id = .relic .airMask

/-- A player who has come to the Maw can have what lies at the location. An inverted game lets
    the player count on swimming and on the gate of the pyramid keys, any other on the past. -/
def Location.IsOpenBeforeMaw (l : Location) (unlocks : Unlocks) (options : Options) : Prop :=
  if options.inverted then
    l.key.level ≠ 1 ∧ l.gate.opens ({.swimming} ∪ unlocks.pyramidKeys) = true
  else
    l.key.level ≠ 1 ∧ l.key.level ≠ 2 ∧ l.key.level ≠ 9 ∧
      l.gate.opens {.gateAccessToPast} = true

namespace Atlas

variable {a : Atlas}

/-- A change leaves the options and the unlocks of an atlas alone. -/
theorem game_after (a : Atlas) (change : Change) :
    (a.after change).options = a.options ∧ (a.after change).unlocks = a.unlocks := by
  cases change with
  | add l =>
    rw [after, add]
    split <;> exact ⟨rfl, rfl⟩
  | place key item =>
    rw [after, place]
    split <;> exact ⟨rfl, rfl⟩
  | pickUp key =>
    rw [after, pickUp?]
    cases a.position? key <;> exact ⟨rfl, rfl⟩
  | resume save => exact ⟨rfl, rfl⟩
  | setGoal goal => exact ⟨rfl, rfl⟩

/-- The options and the unlocks of an atlas are those that its history started with. -/
theorem game_ofHistory (unlocks : Unlocks) (options : Options) (history : List Change) :
    (ofHistory unlocks options history).options = options ∧
      (ofHistory unlocks options history).unlocks = unlocks := by
  refine @replay_induction (fun b => b.options = options ∧ b.unlocks = unlocks) _ _ ⟨rfl, rfl⟩ ?_
  intro b change _ same
  rw [(b.game_after change).1, (b.game_after change).2]
  exact same

/-- What the check asks of the location that it looks at. -/
theorem inReachOfMaw_iff (a : Atlas) (l : Location) :
    a.inReachOfMaw l = true ↔ l.IsOpenBeforeMaw a.unlocks a.options := by
  rw [inReachOfMaw, levelsToAvoid, mawRequirements, Location.IsOpenBeforeMaw]
  split <;> simp [and_assoc]

/-- The check finds the mask within reach exactly when the first location that holds it can be
    had before the Maw. -/
theorem gasMaskInReach_iff (a : Atlas) :
    a.gasMaskInReach = true ↔
      ∃ before l after, a.locations = before ++ l :: after ∧
        (∀ m ∈ before, ¬ m.HoldsGasMask) ∧ l.HoldsGasMask ∧
          l.IsOpenBeforeMaw a.unlocks a.options := by
  have holds (l : Location) :
      (l.item.any fun item => item.id = .relic .airMask) = true ↔ l.HoldsGasMask := by
    simp [Option.any_eq_true, Location.HoldsGasMask]
  rw [gasMaskInReach, Option.any_eq_true]
  constructor
  · rintro ⟨l, found, inReach⟩
    obtain ⟨held, before, after, split, passed⟩ := List.find?_eq_some_iff_append.mp found
    refine ⟨before, l, after, split, fun m member => ?_, (holds l).mp held,
      (a.inReachOfMaw_iff l).mp inReach⟩
    rw [← holds]
    simpa using passed m member
  · rintro ⟨before, l, after, split, passed, held, inReach⟩
    refine ⟨l, List.find?_eq_some_iff_append.mpr ⟨(holds l).mpr held, before, after, split, ?_⟩,
      (a.inReachOfMaw_iff l).mpr inReach⟩
    intro m member
    have empty := passed m member
    rw [← holds] at empty
    simpa using empty

/-- The verdict names the gas mask exactly when the rule about it is broken. -/
theorem verdict_eq_gasMaskOutOfReach_iff (a : Atlas) :
    a.verdict = .gasMaskOutOfReach ↔ ¬ a.KeepsGasRule := by
  have broken : (!a.options.gasMaw && !a.gasMaskInReach) = true ↔ ¬ a.KeepsGasRule := by
    simp [KeepsGasRule]
  rw [← broken, verdict]
  split
  · simp [*]
  · rename_i kept
    simp only [kept, iff_false, Bool.false_eq_true]
    split
    · simp
    · split <;> simp

/-- Let the gas of the Maw be harmless. The verdict then does not name the gas mask exactly when
    the first location that holds the mask can be had before the Maw. So where the mask lies in
    no two locations, it lies somewhere, and wherever it lies it can be had before the Maw. -/
theorem first_gas_mask_decides (unlocks : Unlocks) (options : Options) (history : List Change)
    (harmless : options.gasMaw = false) :
    let a := ofHistory unlocks options history
    (a.verdict ≠ .gasMaskOutOfReach ↔
      ∃ before l after, a.locations = before ++ l :: after ∧
        (∀ m ∈ before, ¬ m.HoldsGasMask) ∧ l.HoldsGasMask ∧ l.IsOpenBeforeMaw unlocks options) ∧
    (a.verdict ≠ .gasMaskOutOfReach →
      (∀ l ∈ a.locations, ∀ m ∈ a.locations, l.HoldsGasMask → m.HoldsGasMask → l = m) →
      (∃ l ∈ a.locations, l.HoldsGasMask) ∧
        ∀ l ∈ a.locations, l.HoldsGasMask → l.IsOpenBeforeMaw unlocks options) := by
  intro a
  obtain ⟨sameOptions, sameUnlocks⟩ := game_ofHistory unlocks options history
  have kept : a.KeepsGasRule ↔ a.gasMaskInReach = true := by
    have lethal : a.options.gasMaw = false := (congrArg Options.gasMaw sameOptions).trans harmless
    simp [KeepsGasRule, lethal]
  have first : a.verdict ≠ .gasMaskOutOfReach ↔
      ∃ before l after, a.locations = before ++ l :: after ∧
        (∀ m ∈ before, ¬ m.HoldsGasMask) ∧ l.HoldsGasMask ∧
          l.IsOpenBeforeMaw unlocks options := by
    rw [ne_eq, verdict_eq_gasMaskOutOfReach_iff, not_not, kept, gasMaskInReach_iff, sameOptions,
      sameUnlocks]
  refine ⟨first, fun passed once => ?_⟩
  obtain ⟨before, l, after, split, _, held, inReach⟩ := first.mp passed
  have member : l ∈ a.locations := by
    rw [split]
    exact List.mem_append_right before List.mem_cons_self
  refine ⟨⟨l, member, held⟩, fun m other also => ?_⟩
  exact once m other l member also held ▸ inReach

/-- An open location with a gas mask in it. -/
def maskAt (key : Key) : Location :=
  ⟨key, "", "", .free, some (.simple (.relic .airMask) {.gasMask}), false⟩

/-- A mask in the forest passes, and it is the only one. -/
theorem forestMask_passes :
    let a := ofHistory ⟨⟨0⟩, ∅⟩ {} [.add (maskAt (.spot 3 1 0 0))]
    (({} : Options).gasMaw = false ∧ a.verdict ≠ .gasMaskOutOfReach) ∧
      ∀ l ∈ a.locations, l.HoldsGasMask → l.IsOpenBeforeMaw ⟨⟨0⟩, ∅⟩ {} := by
  intro a
  have alone : a.locations = [maskAt (.spot 3 1 0 0)] := by decide +kernel
  have passed : a.verdict ≠ .gasMaskOutOfReach := by
    rw [ne_eq, verdict_eq_gasMaskOutOfReach_iff, not_not]
    exact .inr (by decide +kernel)
  have once : ∀ l ∈ a.locations, ∀ m ∈ a.locations, l.HoldsGasMask → m.HoldsGasMask → l = m := by
    intro l first m second _ _
    rw [alone, List.mem_singleton] at first second
    rw [first, second]
  have rule := first_gas_mask_decides ⟨⟨0⟩, ∅⟩ {} [.add (maskAt (.spot 3 1 0 0))] rfl
  exact ⟨⟨rfl, passed⟩, (rule.2 passed once).2⟩

/-- Behind the mask in the forest, a second one passes by the lake, where no mask may lie. -/
theorem lakeMask_passes_behind_forestMask :
    let a := ofHistory ⟨⟨0⟩, ∅⟩ {} [.add (maskAt (.spot 3 1 0 0)), .add (maskAt (.spot 1 1 0 0))]
    a.options.gasMaw = false ∧ a.verdict ≠ .gasMaskOutOfReach ∧
      ∃ l ∈ a.locations, l.HoldsGasMask ∧ ¬ l.IsOpenBeforeMaw ⟨⟨0⟩, ∅⟩ {} := by
  intro a
  have both : a.locations = [maskAt (.spot 3 1 0 0), maskAt (.spot 1 1 0 0)] := by decide +kernel
  have passed : a.verdict ≠ .gasMaskOutOfReach := by
    rw [ne_eq, verdict_eq_gasMaskOutOfReach_iff, not_not]
    exact .inr (by decide +kernel)
  refine ⟨rfl, passed, maskAt (.spot 1 1 0 0), ?_, ⟨_, rfl, rfl⟩, fun outside => outside.1 rfl⟩
  rw [both]
  exact List.mem_cons_of_mem _ (List.mem_singleton_self _)

end Atlas

end ItemLogic
