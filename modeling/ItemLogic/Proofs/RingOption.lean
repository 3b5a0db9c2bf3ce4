import ItemLogic.Proofs.Wiring

/-!
# What the ring option changes

The eye orb ring shows the secret rooms. The option that requires it asks for the ring there, on
top of everything that the room asks for otherwise, and asks for it nowhere else. No alternative
of any gate mentions the ring as long as the option is off, so where the option adds it, it adds
it to every alternative and leaves no way around. A region is never made to ask for the ring:
that would close whatever lies behind the region as well.
-/

namespace ItemLogic

open Gate (needs)

namespace Gate

/-- No alternative of the gate asks for the eye ring. -/
def Ringless (g : Gate) : Prop := ∀ clause ∈ g.clauses, .oculusRift ∉ clause

/-- A conjunction with a gate of one clause adds the clause to every alternative, and leaves none
    out. -/
theorem and_needs (g : Gate) (s : CapSet) : g &&& needs s = g.requiring s := by
  rfl

/-- To ask for nothing on top changes nothing. -/
theorem and_needs_empty (g : Gate) : g &&& needs ∅ = g := by
  have same : ∀ clause ∈ g.clauses, clause ∪ ∅ = clause := fun clause _ =>
    CapSet.ext_members fun c => by simp
  rw [and_needs, requiring, List.map_congr_left same, List.map_id']

variable {g h : Gate} {s : CapSet}

/-- A gate that needs a set without the ring is ringless. -/
theorem ringless_needs (absent : .oculusRift ∉ s) : (needs s).Ringless := by
  intro clause member
  rwa [List.mem_singleton.mp member]

/-- A gate of alternatives, none of them the ring, is ringless. -/
theorem ringless_anyOf (absent : .oculusRift ∉ s) : (anyOf s).Ringless := by
  intro clause member ring
  rw [anyOf] at member
  split at member
  · rw [List.mem_singleton.mp member] at ring
    exact CapSet.not_mem_empty _ ring
  · obtain ⟨c, listed, rfl⟩ := List.mem_map.mp member
    rw [← CapSet.mem_singleton.mp ring] at listed
    exact absent (CapSet.mem_members.mp listed)

/-- A ringless gate stays ringless when a set without the ring is required on top. -/
theorem Ringless.requiring (left : g.Ringless) (absent : .oculusRift ∉ s) :
    (g.requiring s).Ringless := by
  intro clause member ring
  obtain ⟨old, present, rfl⟩ := List.mem_map.mp member
  rcases CapSet.mem_union.mp ring with before | asked
  · exact left old present before
  · exact absent asked

/-- An alternative of ringless gates is ringless. -/
theorem Ringless.or (left : g.Ringless) (right : h.Ringless) : (g ||| h).Ringless :=
  List.forall_mem_append.mpr ⟨left, right⟩

/-- A conjunction puts alternatives together and leaves some out. It adds nothing to them. -/
theorem Ringless.and (left : g.Ringless) (right : h.Ringless) : (g &&& h).Ringless := by
  change (g.and h).Ringless
  rw [Gate.and]
  split
  · rename_i single found
    exact left.requiring (right single (found ▸ List.mem_singleton_self single))
  · rename_i single found _
    exact right.requiring (left single (found ▸ List.mem_singleton_self single))
  · intro clause member ring
    obtain ⟨first, listed, second, listed', rfl⟩ := mem_product.mp (mem_of_mem_absorb member)
    rcases CapSet.mem_union.mp ring with here | here
    · exact left first listed here
    · exact right second listed' here

/-- Gates that are wired from ringless sets are ringless. -/
theorem compatible_ringless : Compatible fun g _ => g.Ringless where
  needs _ := ringless_needs
  anyOf _ := ringless_anyOf
  and := Ringless.and
  or := Ringless.or

end Gate

namespace World

/-- The secret rooms that the eye ring shows, by the present, the past, the pyramid and the
    memories. -/
def secretRooms : List Key :=
  [.spot 1 11 72 240, .spot 1 21 200 144, .spot 2 7 232 144, .spot 9 12 280 160,
   .spot 11 27 296 160, .spot 12 3 200 160,
   .spot 3 21 120 192, .spot 7 27 184 144, .spot 7 11 88 240, .spot 8 12 280 160,
   .spot 5 9 104 189, .spot 6 19 200 176,
   .spot 16 22 200 192, .spot 16 16 1512 144,
   .spot 11 7 248 129, .spot 11 7 296 129]

/-- What the regions ask for at a secret room is asked for there, on top of the rest, and at no
    other slot. -/
theorem gate_of_secret_room (r : Regions) (s : CapSet) :
    ∀ area ∈ areas everywhere, ∀ slot ∈ area.slots,
      slot.gate { r with oculusRift := s } =
        if slot.key ∈ secretRooms then slot.gate { r with oculusRift := ∅ } &&& needs s
        else slot.gate { r with oculusRift := ∅ } := by
  simp only [areas, everywhere, present, past, pyramid, gyre, terminals, cantoran, lore,
    List.forall_mem_append, List.forall_mem_cons, List.not_mem_nil, false_imp_iff, implies_true,
    and_true, if_true]
  simp +decide [Gate.and_needs_empty]

variable {o : Options}

section Option

variable (off : o.requireEyeOrbRing = false)

include off

/-- Without the option the regions ask for nothing at the secret rooms. -/
theorem ofOptions_ringless :
    { Regions.ofOptions o with oculusRift := ∅ } = Regions.ofOptions o := by
  simp [Regions.ofOptions, off]

/-- Without the option no slot asks for the ring. -/
theorem ringless_slot {area : Area} (known : area ∈ areas everywhere) {slot : Slot}
    (listed : slot ∈ area.slots) : (slot.gate (.ofOptions o)).Ringless := by
  have mask : .oculusRift ∉ (Regions.ofOptions o).mawGasMask := by
    cases lethal : o.gasMaw <;> simp [Regions.ofOptions, lethal]
  have regions : (Regions.ofOptions o).Correspond (fun g _ => g.Ringless) (.ofOptions o) := by
    refine correspond_ofOptions Gate.compatible_ringless rfl ?_ (Gate.ringless_needs mask)
    rw [← ofOptions_ringless off]
    exact Gate.ringless_needs (CapSet.not_mem_empty _)
  by_cases crystal : slot.key = plasmaCrystal
  · rw [gate_of_key_eq_plasmaCrystal _ area known slot listed crystal]
    have caves : (Regions.ofOptions o).lowerCavesOfBanishment.Ringless :=
      regions.gates (·.lowerCavesOfBanishment) (by simp [Regions.gates])
    refine caves.and (Gate.ringless_anyOf ?_)
    simp [mask]
  · exact regions.slots Gate.compatible_ringless area known slot listed crystal

end Option

/-- What the ring option makes of a location: a secret room asks for the ring in every one of
    its alternatives, and nothing else changes. -/
structure Ringed (l m : Location) : Prop where
  key : l.key = m.key
  ringless : l.gate.Ringless
  gate : m.gate = if l.key ∈ secretRooms then l.gate.requiring {.oculusRift} else l.gate

/-- The option asks for the ring at the secret rooms of the world. -/
theorem ringed_locations (off : o.requireEyeOrbRing = false) (catalog catalog' : Catalog) :
    List.Forall₂ Ringed (locations catalog o)
      (locations catalog' { o with requireEyeOrbRing := true }) := by
  refine forall₂_locations rfl rfl ?_ ⟨rfl, Gate.ringless_needs (CapSet.not_mem_empty _), ?_⟩
  · intro area known slot listed
    have known := (areas_sublist o).subset known
    have gate := gate_of_secret_room (.ofOptions o) {.oculusRift} area known slot listed
    rw [ofOptions_ringless off, Gate.and_needs] at gate
    exact ⟨rfl, ringless_slot off known listed, gate⟩
  · exact (if_neg (by decide : Key.start ∉ secretRooms)).symm

variable {held : CapSet}

/-- A location opens with the option when it opens without, and the player holds the ring if it
    is in a secret room. -/
theorem Ringed.opens_iff {l m : Location} (ringed : Ringed l m) :
    m.gate.opens held = true ↔
      (l.key ∈ secretRooms → .oculusRift ∈ held) ∧ l.gate.opens held = true := by
  rw [ringed.gate]
  by_cases secret : l.key ∈ secretRooms
  · simp [secret, CapSet.singleton_subset_iff, and_comm]
  · simp [secret]

/-- A location whose gate has changed stays closed to a player without the ring. -/
theorem Ringed.closed_of_changed {l m : Location} (ringed : Ringed l m)
    (changed : m.gate ≠ l.gate) (without : .oculusRift ∉ held) : m.gate.opens held = false := by
  have secret : l.key ∈ secretRooms := by
    by_contra plain
    exact changed (ringed.gate.trans (if_neg plain))
  rw [← Bool.not_eq_true, ringed.opens_iff]
  exact fun passed => without (passed.1 secret)

/-- With the option the reachable keys are those without it, but for the secret rooms of a
    player without the ring. -/
theorem reachable_keys_of_ringed {ls ms : List Location} (paired : List.Forall₂ Ringed ls ms) :
    (ms.filter (·.gate.opens held)).map (·.key) =
      ((ls.filter (·.gate.opens held)).map (·.key)).filter
        fun key => key ∈ secretRooms → .oculusRift ∈ held :=
  reachable_keys_of_paired (fun _ _ ringed => ringed.key.symm) paired.flip
    fun _ _ => Ringed.opens_iff

/-- The ring option asks for the ring in every alternative of the gates of the secret rooms,
    where none mentions it without the option, and leaves every other gate alone. So it opens
    nothing, takes nothing from a player who holds the ring, and closes each place whose gate it
    changes to all others. -/
theorem ring_option_asks_at_secret_rooms (catalog catalog' : Catalog)
    (unlocks unlocks' : Unlocks) (o : Options) (off : o.requireEyeOrbRing = false) :
    ∃ a b, build catalog unlocks o = .ok a ∧
      build catalog' unlocks' { o with requireEyeOrbRing := true } = .ok b ∧ a.keys = b.keys ∧
      (∀ l ∈ a.locations, ∀ m ∈ b.locations, l.key = m.key →
        (∀ clause ∈ l.gate.clauses, .oculusRift ∉ clause) ∧
        m.gate.clauses =
          (if l.key ∈ secretRooms then l.gate.clauses.map (· ∪ {.oculusRift})
          else l.gate.clauses) ∧
        ∀ held, m.gate ≠ l.gate → .oculusRift ∉ held → m.gate.opens held = false) ∧
      ∀ held,
        ((b.reachable held).map (·.key)).Sublist ((a.reachable held).map (·.key)) ∧
        (.oculusRift ∈ held →
          (b.reachable held).map (·.key) = (a.reachable held).map (·.key)) := by
  obtain ⟨a, built, all⟩ := exists_build_locations catalog unlocks o
  obtain ⟨b, built', all'⟩ :=
    exists_build_locations catalog' unlocks' { o with requireEyeOrbRing := true }
  have distinct : a.keys.Nodup := by
    rw [Atlas.keys, all, keys_locations]
    exact nodup_keys o
  have paired : List.Forall₂ Ringed a.locations b.locations := by
    rw [all, all']
    exact ringed_locations off catalog catalog'
  refine ⟨a, b, built, built', map_key_of_paired (fun _ _ => Ringed.key) paired, ?_, ?_⟩
  · intro l left m right same
    have ringed : Ringed l m :=
      related_of_key_eq (fun _ _ => Ringed.key) paired distinct left right same
    refine ⟨ringed.ringless, ?_, fun held => ringed.closed_of_changed⟩
    rw [ringed.gate, apply_ite Gate.clauses]
    rfl
  · intro held
    have reached : (b.reachable held).map (·.key) = ((a.reachable held).map (·.key)).filter
        fun key => key ∈ secretRooms → .oculusRift ∈ held := reachable_keys_of_ringed paired
    rw [reached]
    refine ⟨List.filter_sublist, fun ring => List.filter_eq_self.mpr ?_⟩
    intro key _
    exact decide_eq_true fun _ => ring

/-- A player who wears the ring has the same within reach in both worlds. -/
theorem ring_bearer_reaches_same :
    let unlocks : Unlocks := ⟨⟨0⟩, ∅⟩
    let held : CapSet := {.forwardDash, .timeStop, .oculusRift}
    ({} : Options).requireEyeOrbRing = false ∧
      ∃ a b, build (.standard {} unlocks) unlocks {} = .ok a ∧
        build (.standard {} unlocks) unlocks { requireEyeOrbRing := true } = .ok b ∧
        (b.reachable held).map (·.key) = (a.reachable held).map (·.key) := by
  intro unlocks held
  obtain ⟨a, b, built, built', _, _, reached⟩ := ring_option_asks_at_secret_rooms
    (.standard {} unlocks) (.standard {} unlocks) unlocks unlocks {} rfl
  exact ⟨rfl, a, b, built, built', (reached held).2 (by decide)⟩

end World

end ItemLogic
