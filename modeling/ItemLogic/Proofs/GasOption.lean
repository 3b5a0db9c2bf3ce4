import ItemLogic.Proofs.Wiring

/-!
# What the gas option changes

Where the gas of the Maw is lethal, the world asks for the gas mask on top of what it asks for
otherwise, so nothing opens earlier, and to a player with the mask nothing is lost. The plasma
crystal is the exception. It wants a dash or the mask there, and the mask counts only in a world
in which the gas is lethal: without the option the crystal needs the dash.
-/

namespace ItemLogic

/-- A player who holds `held` passes the first gate when the second lets the player pass, and
    with the gas mask only then. -/
structure Gate.Stricter (held : CapSet) (g g' : Gate) : Prop where
  opens : g'.opens held = true → g.opens held = true
  masked : .gasMask ∈ held → g.opens held = true → g'.opens held = true

namespace Gate

variable {held : CapSet}

/-- A gate that stays as it is asks for no less. -/
theorem Stricter.refl (g : Gate) : Stricter held g g := ⟨id, fun _ => id⟩

/-- Gates that are wired alike from stricter parts are stricter. -/
theorem compatible_stricter (held : CapSet) : Compatible (Stricter held) where
  needs s _ := .refl (.needs s)
  anyOf s _ := .refl (.anyOf s)
  and left right := by
    constructor
    · simp only [opens_and, Bool.and_eq_true]
      exact And.imp left.opens right.opens
    · intro mask
      simp only [opens_and, Bool.and_eq_true]
      exact And.imp (left.masked mask) (right.masked mask)
  or left right := by
    constructor
    · simp only [opens_or, Bool.or_eq_true]
      exact Or.imp left.opens right.opens
    · intro mask
      simp only [opens_or, Bool.or_eq_true]
      exact Or.imp (left.masked mask) (right.masked mask)

/-- To ask for the mask is stricter than to ask for nothing. -/
theorem stricter_needs_gasMask : Stricter held (.needs ∅) (.needs {.gasMask}) := by
  constructor
  · simp
  · intro mask _
    simpa [CapSet.singleton_subset_iff] using mask

end Gate

namespace World

variable {o : Options} {held : CapSet}

/-- In the lower caves the plasma crystal takes the dash, or something that the option puts
    there. -/
theorem opens_crystalGate (r : Regions) :
    r.crystalGate.opens held = true ↔ r.lowerCavesOfBanishment.opens held = true ∧
      (.forwardDash ∈ held ∨ ∃ c : Capability, c ∈ r.mawGasMask ∧ c ∈ held) := by
  have filled : ¬ {.forwardDash} ∪ r.mawGasMask = (∅ : CapSet) := by
    intro empty
    have member : Capability.forwardDash ∈ ({.forwardDash} ∪ r.mawGasMask : CapSet) := by simp
    rw [empty] at member
    exact CapSet.not_mem_empty _ member
  rw [Regions.crystalGate, Gate.opens_and, Bool.and_eq_true, Gate.opens_anyOf]
  simp [filled, or_and_right, exists_or]

section Option

variable (harmless : o.gasMaw = false)

include harmless

/-- Without the option nothing is asked for on account of the gas. -/
theorem mawGasMask_eq_empty : (Regions.ofOptions o).mawGasMask = ∅ := by
  simp [Regions.ofOptions, harmless]

/-- The gates of the regions are stricter with the gas option. -/
theorem correspond_gasMaw :
    (Regions.ofOptions o).Correspond (Gate.Stricter held)
      (Regions.ofOptions { o with gasMaw := true }) := by
  refine correspond_ofOptions (Gate.compatible_stricter held) rfl (Gate.Stricter.refl _) ?_
  rw [mawGasMask_eq_empty harmless]
  exact Gate.stricter_needs_gasMask

end Option

/-- What the gas option makes of a location: the plasma crystal without a dash is the one thing
    that can open. -/
structure Tightened (held : CapSet) (l m : Location) : Prop where
  key : l.key = m.key
  opens : m.gate.opens held = true →
    (l.gate.opens held = true ↔ (l.key = plasmaCrystal → .forwardDash ∈ held))
  masked : .gasMask ∈ held → l.gate.opens held = true → m.gate.opens held = true

/-- The option tightens every slot. -/
theorem tightened_slot (harmless : o.gasMaw = false) (catalog catalog' : Catalog) {area : Area}
    (known : area ∈ areas o) {slot : Slot} (listed : slot ∈ area.slots) :
    Tightened held (slot.location area.name (.ofOptions o) catalog)
      (slot.location area.name (.ofOptions { o with gasMaw := true }) catalog') := by
  have regions : (Regions.ofOptions o).Correspond (Gate.Stricter held) _ :=
    correspond_gasMaw harmless
  have known := (areas_sublist o).subset known
  by_cases crystal : slot.key = plasmaCrystal
  · have caves := regions.gates (·.lowerCavesOfBanishment) (by simp [Regions.gates])
    have gate (r : Regions) : slot.gate r = r.crystalGate :=
      gate_of_key_eq_plasmaCrystal r area known slot listed crystal
    refine ⟨rfl, ?_, ?_⟩ <;> simp only [Slot.location, gate, opens_crystalGate]
    · rintro ⟨reached, _⟩
      simp [crystal, caves.opens reached, mawGasMask_eq_empty harmless]
    · rintro mask ⟨reached, dash | ⟨c, nothing, _⟩⟩
      · exact ⟨caves.masked mask reached, .inl dash⟩
      · rw [mawGasMask_eq_empty harmless] at nothing
        exact absurd nothing (CapSet.not_mem_empty c)
  · have stricter := regions.slots (Gate.compatible_stricter held) area known slot listed crystal
    refine ⟨rfl, ?_, stricter.masked⟩
    intro opened
    exact ⟨fun _ same => absurd same crystal, fun _ => stricter.opens opened⟩

/-- The option tightens the world location by location. -/
theorem tightened_locations (harmless : o.gasMaw = false) (catalog catalog' : Catalog)
    (held : CapSet) :
    List.Forall₂ (Tightened held) (locations catalog o)
      (locations catalog' { o with gasMaw := true }) := by
  refine forall₂_locations rfl rfl ?_ ?_
  · intro area known slot listed
    exact tightened_slot harmless catalog catalog' known listed
  · have elsewhere : Key.start ≠ plasmaCrystal := by decide
    refine ⟨rfl, fun _ => ?_, fun _ => id⟩
    exact ⟨fun _ same => absurd same elsewhere, fun _ => Gate.opens_free held⟩

/-- With the mask a location is open just when its counterpart is, but for the crystal. -/
theorem Tightened.opens_iff_of_masked {l m : Location} (tightened : Tightened held l m)
    (mask : .gasMask ∈ held) :
    l.gate.opens held = true ↔
      (m.key = plasmaCrystal → .forwardDash ∈ held) ∧ m.gate.opens held = true := by
  rw [← tightened.key]
  constructor
  · intro opened
    have passed := tightened.masked mask opened
    exact ⟨(tightened.opens passed).mp opened, passed⟩
  · rintro ⟨dashes, passed⟩
    exact (tightened.opens passed).mpr dashes

/-- With the mask the reachable keys are those of the counterparts, but for the crystal. -/
theorem reachable_keys_of_masked {ls ms : List Location} (mask : .gasMask ∈ held)
    (paired : List.Forall₂ (Tightened held) ls ms) :
    (ls.filter (·.gate.opens held)).map (·.key) =
      ((ms.filter (·.gate.opens held)).map (·.key)).filter
        fun key => key = plasmaCrystal → .forwardDash ∈ held := by
  refine reachable_keys_of_paired (fun _ _ => Tightened.key) paired ?_
  intro l m tightened
  exact tightened.opens_iff_of_masked mask

/-- The gas option only takes away, and takes nothing from a player who holds the gas mask, but
    for the plasma crystal. It is there without the option just to a player with the dash. -/
theorem gas_option_tightens_but_for_crystal (catalog catalog' : Catalog)
    (unlocks unlocks' : Unlocks) (o : Options) (harmless : o.gasMaw = false) :
    ∃ a b, build catalog unlocks o = .ok a ∧
      build catalog' unlocks' { o with gasMaw := true } = .ok b ∧ a.keys = b.keys ∧
      ∀ held : CapSet,
        (∀ l ∈ a.locations, ∀ m ∈ b.locations, l.key = m.key → m.gate.opens held = true →
          (l.gate.opens held = true ↔ (l.key = plasmaCrystal → .forwardDash ∈ held))) ∧
        (.gasMask ∈ held →
          (a.reachable held).map (·.key) =
            ((b.reachable held).map (·.key)).filter
              fun key => key = plasmaCrystal → .forwardDash ∈ held) := by
  obtain ⟨a, built, all⟩ := exists_build_locations catalog unlocks o
  obtain ⟨b, built', all'⟩ := exists_build_locations catalog' unlocks' { o with gasMaw := true }
  have listed : a.keys = keys o := by rw [Atlas.keys, all, keys_locations]
  have distinct : a.keys.Nodup := listed ▸ nodup_keys o
  have paired (held : CapSet) : List.Forall₂ (Tightened held) a.locations b.locations := by
    rw [all, all']
    exact tightened_locations harmless catalog catalog' held
  refine ⟨a, b, built, built', map_key_of_paired (fun _ _ => Tightened.key) (paired ∅), ?_⟩
  intro held
  constructor
  · intro l left m right same
    have tightened : Tightened held l m :=
      related_of_key_eq (fun _ _ => Tightened.key) (paired held) distinct left right same
    exact tightened.opens
  · intro mask
    exact reachable_keys_of_masked mask (paired held)

/-- A player with the mask and the dash has the same within reach in both worlds. -/
theorem masked_dasher_reaches_same :
    let unlocks : Unlocks := ⟨⟨0⟩, ∅⟩
    let held : CapSet := {.gateMaw, .gasMask, .forwardDash}
    ({} : Options).gasMaw = false ∧
      ∃ a b, build (.standard {} unlocks) unlocks {} = .ok a ∧
        build (.standard {} unlocks) unlocks { gasMaw := true } = .ok b ∧
        (a.reachable held).map (·.key) = (b.reachable held).map (·.key) := by
  intro unlocks held
  obtain ⟨a, b, built, built', _, tightened⟩ := gas_option_tightens_but_for_crystal
    (.standard {} unlocks) (.standard {} unlocks) unlocks unlocks {} rfl
  have dash : .forwardDash ∈ held := by decide
  refine ⟨rfl, a, b, built, built', ?_⟩
  rw [(tightened held).2 (by decide), List.filter_eq_self]
  intro key _
  exact decide_eq_true fun _ => dash

/-- The plasma crystal is there whatever the options. -/
theorem plasmaCrystal_mem_keys (o : Options) : plasmaCrystal ∈ keys o := by
  have listed : plasmaCrystal ∈ past.flatMap fun area => area.slots.map (·.key) := by
    decide +kernel
  simp only [keys, areas, List.flatMap_append, List.mem_append, listed, true_or, or_true]

/-- The plasma crystal is within reach when its gate opens. -/
theorem plasmaCrystal_reachable_iff {catalog : Catalog} {w : Atlas}
    (all : w.locations = locations catalog o) :
    plasmaCrystal ∈ (w.reachable held).map (·.key) ↔
      (Regions.ofOptions o).crystalGate.opens held = true := by
  have gate : ∀ l ∈ locations catalog o, l.key = plasmaCrystal →
      l.gate = (Regions.ofOptions o).crystalGate := by
    intro l member crystal
    rcases mem_locations.mp member with ⟨area, known, slot, given, rfl⟩ | ⟨_, rfl⟩
    · have known := (areas_sublist o).subset known
      exact gate_of_key_eq_plasmaCrystal _ area known slot given crystal
    · exact absurd crystal (by decide : Key.start ≠ plasmaCrystal)
  rw [Atlas.reachable, all]
  constructor
  · intro reached
    obtain ⟨l, found, crystal⟩ := List.mem_map.mp reached
    obtain ⟨member, passed⟩ := List.mem_filter.mp found
    exact gate l member crystal ▸ passed
  · intro passed
    obtain ⟨l, member, crystal⟩ :=
      List.mem_map.mp ((keys_locations catalog o).symm ▸ plasmaCrystal_mem_keys o)
    rw [← gate l member crystal] at passed
    exact List.mem_map.mpr ⟨l, List.mem_filter.mpr ⟨member, passed⟩, crystal⟩

/-- With the mask alone the plasma crystal is within reach only in the world in which the gas is
    lethal. -/
theorem crystal_reached_only_with_option :
    let unlocks : Unlocks := ⟨⟨0⟩, ∅⟩
    let held : CapSet := {.gateCavesOfBanishment, .gasMask}
    ∃ a b, build (.standard {} unlocks) unlocks {} = .ok a ∧
      build (.standard {} unlocks) unlocks { gasMaw := true } = .ok b ∧ .gasMask ∈ held ∧
      plasmaCrystal ∈ (b.reachable held).map (·.key) ∧
      plasmaCrystal ∉ (a.reachable held).map (·.key) := by
  intro unlocks held
  obtain ⟨a, built, all⟩ := exists_build_locations (.standard {} unlocks) unlocks {}
  obtain ⟨b, built', all'⟩ :=
    exists_build_locations (.standard {} unlocks) unlocks { gasMaw := true }
  refine ⟨a, b, built, built', by decide, ?_, ?_⟩
  · rw [plasmaCrystal_reachable_iff all', opens_crystalGate]
    exact ⟨by decide +kernel, .inr ⟨.gasMask, by decide, by decide⟩⟩
  · rw [plasmaCrystal_reachable_iff all, opens_crystalGate, mawGasMask_eq_empty rfl]
    rintro ⟨_, dash | ⟨c, nothing, _⟩⟩
    · exact absurd dash (by decide)
    · exact CapSet.not_mem_empty c nothing

end World

end ItemLogic
