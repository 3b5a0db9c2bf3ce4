import ItemLogic.Proofs.Waves
import Mathlib.Data.List.DropRight

/-!
# Waves are the layers of reach

Each location that a fresh player can come to reach, and that holds progression, enters
reach in one round: with what is held then its gate opens, and with what was held earlier it
did not. The waves are these layers. A key stands in the wave of the round in which its
location enters, in no other wave, and once; so nothing is listed twice, and the waves
together list what the closure of nothing reaches.

A round may bring new capabilities and yet open no progression, since a copy without stages
of its own still counts for the chain that it shares. Where the copies of each item have the
same stages, a round whose wave is empty adds nothing to what is held, and then no later
round does: the empty rounds are those at the end, which the log leaves out.
-/

namespace ItemLogic.Atlas

/-- A location is progression that opens after some rounds and after no fewer. -/
structure EntersAfter (a : Atlas) (rounds : Nat) (l : Location) : Prop where
  progression : l.holdsProgression = true
  opened : l.gate.opens (a.heldAfter rounds) = true
  unopened : ∀ fewer < rounds, l.gate.opens (a.heldAfter fewer) = false

variable {a : Atlas} {j k : Nat} {w : List Key} {l : Location}

/-- More rounds never leave a fresh player with less. -/
theorem heldAfter_mono (a : Atlas) (bounded : j ≤ k) : a.heldAfter j ⊆ a.heldAfter k := by
  induction bounded with
  | refl => exact CapSet.subset_refl _
  | step _ ih => exact CapSet.subset_trans ih (a.heldAfter_subset_succ _)

/-- Once a round adds nothing, no later round does. -/
theorem heldAfter_eq_of_rest (rest : a.heldAfter (k + 1) = a.heldAfter k) (bounded : k ≤ j) :
    a.heldAfter j = a.heldAfter k := by
  obtain ⟨more, rfl⟩ := Nat.exists_eq_add_of_le bounded
  rw [heldAfter, Function.iterate_succ_apply'] at rest
  rw [heldAfter, Nat.add_comm, Function.iterate_add_apply]
  exact Function.iterate_fixed rest more

/-- A location enters in one round. -/
theorem EntersAfter.unique (first : a.EntersAfter j l) (second : a.EntersAfter k l) : j = k := by
  rcases Nat.lt_trichotomy j k with before | same | later
  · have closed := second.unopened j before
    rw [first.opened] at closed
    cases closed
  · exact same
  · have closed := first.unopened k later
    rw [second.opened] at closed
    cases closed

/-- A location enters in the round before which it comes within reach. -/
theorem entersAfter_iff :
    a.EntersAfter k l ↔ a.inReachBefore (k + 1) l = true ∧ a.inReachBefore k l = false := by
  constructor
  · intro enters
    refine ⟨Bool.and_eq_true_iff.mpr ⟨enters.progression, enters.opened⟩, ?_⟩
    cases k with
    | zero => rfl
    | succ k => simp [inReachBefore, enters.unopened k (Nat.lt_succ_self k)]
  · rintro ⟨now, before⟩
    obtain ⟨progression, opened⟩ := Bool.and_eq_true_iff.mp now
    refine ⟨progression, opened, fun fewer bounded => ?_⟩
    obtain ⟨last, rfl⟩ : ∃ last, k = last + 1 := Nat.exists_eq_succ_of_ne_zero (by omega)
    have closed : l.gate.opens (a.heldAfter last) = false := by
      simpa [inReachBefore, progression] using before
    rw [Bool.eq_false_iff] at closed ⊢
    intro early
    exact closed (Gate.opens_mono (a.heldAfter_mono (Nat.le_of_lt_succ bounded)) early)

/-- A key is in reach before a round exactly when its location is. -/
theorem Coherent.key_mem_keysBefore (coherent : a.Coherent) (present : l ∈ a.locations) :
    l.key ∈ a.keysBefore k ↔ a.inReachBefore k l = true := by
  rw [mem_keysBefore]
  constructor
  · rintro ⟨m, inside, before, same⟩
    exact coherent.eq_of_key_eq inside present same ▸ before
  · intro before
    exact ⟨l, present, before, rfl⟩

/-- The wave of a round lists the keys of the locations that enter in it. -/
theorem mem_round_iff_entersAfter (coherent : a.Coherent) (found : a.rounds[k]? = some w)
    {key : Key} : key ∈ w ↔ ∃ l ∈ a.locations, l.key = key ∧ a.EntersAfter k l := by
  rw [mem_round found]
  constructor
  · rintro ⟨now, new⟩
    obtain ⟨l, present, within, rfl⟩ := mem_keysBefore.mp now
    rw [coherent.key_mem_keysBefore present, Bool.not_eq_true] at new
    exact ⟨l, present, rfl, entersAfter_iff.mpr ⟨within, new⟩⟩
  · rintro ⟨l, present, rfl, enters⟩
    obtain ⟨within, new⟩ := entersAfter_iff.mp enters
    rw [coherent.key_mem_keysBefore present, coherent.key_mem_keysBefore present,
      Bool.not_eq_true]
    exact ⟨within, new⟩

/-- The last round is entered with the closure of nothing in hand. -/
theorem exists_length_rounds (a : Atlas) :
    ∃ last, a.rounds.length = last + 1 ∧ a.heldAfter last = a.closure ∅ := by
  have positive := List.length_pos_iff.mpr (ascent_ne_nil a.obtained ∅)
  obtain ⟨last, counted⟩ := Nat.exists_eq_succ_of_ne_zero (Nat.ne_of_gt positive)
  have summit := ascent_getElem?_summit a.obtained ∅
  rw [counted, Nat.succ_sub_one] at summit
  refine ⟨last, a.length_rounds.trans counted, ?_⟩
  rw [closure_empty_eq_summit]
  exact (eq_heldAfter_of_freshAscent summit).symm

/-- No location enters when the rounds are over. -/
theorem lt_length_rounds_of_entersAfter (enters : a.EntersAfter k l) : k < a.rounds.length := by
  obtain ⟨last, length, whole⟩ := a.exists_length_rounds
  by_contra beyond
  have rest : a.heldAfter (last + 1) = a.heldAfter last := by
    rw [heldAfter, Function.iterate_succ_apply', ← heldAfter, whole, obtained_closure_empty]
  have opened := enters.opened
  rw [heldAfter_eq_of_rest rest (by omega), enters.unopened last (by omega)] at opened
  cases opened

/-- A key stands in the wave of a number exactly when its location enters after so many
    rounds. -/
theorem mem_wave_iff_entersAfter (coherent : a.Coherent) (k : Nat) (key : Key) :
    (∃ w, a.waves[k]? = some w ∧ key ∈ w) ↔
      ∃ l ∈ a.locations, l.key = key ∧ a.EntersAfter k l := by
  constructor
  · rintro ⟨w, found, member⟩
    exact (mem_round_iff_entersAfter coherent (round_of_waves_getElem? found)).mp member
  · rintro ⟨l, present, same, enters⟩
    obtain ⟨w, found⟩ : ∃ w, a.rounds[k]? = some w :=
      ⟨_, List.getElem?_eq_getElem (lt_length_rounds_of_entersAfter enters)⟩
    have member := (mem_round_iff_entersAfter coherent found).mpr ⟨l, present, same, enters⟩
    refine ⟨w, ?_, member⟩
    -- A round that the log leaves out is empty, but this one lists the key.
    obtain ⟨rest, whole, empty⟩ := a.exists_rounds_eq_append
    rw [whole] at found
    rcases Nat.lt_or_ge k a.waves.length with inside | beyond
    · rwa [List.getElem?_append_left inside] at found
    · rw [List.getElem?_append_right beyond] at found
      rw [empty w (List.mem_of_getElem? found)] at member
      cases member

/-- Two waves have no key in common. -/
theorem waves_pairwise_disjoint (coherent : a.Coherent) : a.waves.Pairwise List.Disjoint := by
  rw [List.pairwise_iff_getElem]
  intro i j inside other before key first second
  obtain ⟨l, present, same, enters⟩ :=
    (mem_wave_iff_entersAfter coherent i key).mp ⟨_, List.getElem?_eq_getElem inside, first⟩
  obtain ⟨m, present', rfl, enters'⟩ :=
    (mem_wave_iff_entersAfter coherent j key).mp ⟨_, List.getElem?_eq_getElem other, second⟩
  obtain rfl := coherent.eq_of_key_eq present present' same
  exact Nat.ne_of_lt before (enters.unique enters')

/-- The keys of a wave stand in the order of the locations. -/
theorem wave_sublist_keys (a : Atlas) (before : Option CapSet) (held : CapSet) :
    (a.wave before held).Sublist a.keys := by
  have reached : (a.reachableProgression held).Sublist a.locations :=
    List.filter_sublist.trans List.filter_sublist
  exact List.filter_sublist.trans (reached.map _)

/-- Every wave along some sets belongs to one of them and to what came before it, if anything. -/
theorem exists_of_mem_wavesAlong {before : Option CapSet} {sets : List CapSet}
    (member : w ∈ a.wavesAlong before sets) : ∃ earlier held, w = a.wave earlier held := by
  induction sets generalizing before with
  | nil => cases member
  | cons held rest ih =>
    rcases List.mem_cons.mp member with here | later
    · exact ⟨before, held, here⟩
    · exact ih later

/-- The keys of every wave stand in the order of the locations. -/
theorem sublist_keys_of_mem_waves (member : w ∈ a.waves) : w.Sublist a.keys := by
  obtain ⟨rest, whole, _⟩ := a.exists_rounds_eq_append
  have listed : w ∈ a.rounds := whole ▸ List.mem_append_left rest member
  obtain ⟨before, held, rfl⟩ := exists_of_mem_wavesAlong listed
  exact a.wave_sublist_keys before held

/-- The waves together list the progression that the closure of nothing reaches. -/
theorem mem_waves_iff (a : Atlas) (key : Key) :
    (∃ w ∈ a.waves, key ∈ w) ↔ key ∈ (a.reachableProgression (a.closure ∅)).map (·.key) := by
  obtain ⟨last, length, whole⟩ := a.exists_length_rounds
  have rounds := mem_rounds_take (Nat.le_refl a.rounds.length) key
  rw [List.take_length, length, keysBefore_succ, whole] at rounds
  rw [← rounds, exists_mem_rounds_iff]

/-- A round whose wave is empty adds nothing to what is held, where copies agree. -/
theorem heldAfter_succ_of_round_nil (coherent : a.Coherent) (uniform : a.Uniform)
    (empty : a.rounds[k]? = some []) : a.heldAfter (k + 1) = a.heldAfter k := by
  rw [← granted_inReachBefore uniform k, ← granted_inReachBefore uniform (k + 1)]
  refine congrArg a.granted (List.filter_congr fun l present => ?_)
  rw [Bool.eq_iff_iff]
  constructor
  · intro now
    by_contra new
    have enters := entersAfter_iff.mpr ⟨now, Bool.eq_false_iff.mpr new⟩
    have member := (mem_round_iff_entersAfter coherent empty).mpr ⟨l, present, rfl, enters⟩
    cases member
  · exact inReachBefore_succ

/-- The last wave of a log is not empty. -/
theorem getLast_waves_ne_nil (listed : a.waves ≠ []) : a.waves.getLast listed ≠ [] := by
  have trimmed := List.rdropWhile_last_not List.isEmpty a.rounds listed
  exact fun empty => trimmed (List.isEmpty_iff.mpr empty)

/-- No wave is empty where copies agree: an empty one would leave nothing to enter later,
    but something enters in the last wave. -/
theorem ne_nil_of_mem_waves (coherent : a.Coherent) (uniform : a.Uniform)
    (member : w ∈ a.waves) : w ≠ [] := by
  rintro rfl
  obtain ⟨k, found⟩ := List.mem_iff_getElem?.mp member
  have listed : a.waves ≠ [] := List.ne_nil_of_mem member
  obtain ⟨key, inLast⟩ := List.exists_mem_of_ne_nil _ (getLast_waves_ne_nil listed)
  have last : a.waves[a.waves.length - 1]? = some (a.waves.getLast listed) := by
    rw [← List.getLast?_eq_getElem?, List.getLast?_eq_some_getLast listed]
  obtain ⟨l, present, same, enters⟩ :=
    (mem_wave_iff_entersAfter coherent _ key).mp ⟨_, last, inLast⟩
  obtain ⟨inside, _⟩ := List.getElem?_eq_some_iff.mp found
  rcases Nat.lt_or_ge k (a.waves.length - 1) with before | same'
  · have rest := heldAfter_succ_of_round_nil coherent uniform (round_of_waves_getElem? found)
    have opened := enters.opened
    rw [heldAfter_eq_of_rest rest (Nat.le_of_lt before), enters.unopened k before] at opened
    cases opened
  · obtain rfl : k = a.waves.length - 1 := by omega
    rw [found] at last
    rw [← Option.some.inj last] at inLast
    cases inLast

/-- The waves of the atlas of any history are the layers of reach. They are disjoint, each
    lists keys once and in the order of the locations, and together they list the
    progression that the closure of nothing reaches. A key stands in the wave of a number
    exactly when its location is progression that opens after so many rounds and after no
    fewer. No wave is empty where the changes that were not refused carry one list of stages
    for each item. -/
theorem waves_are_layers (unlocks : Unlocks) (options : Options) (history : List Change) :
    let a := ofHistory unlocks options history
    a.waves.Pairwise List.Disjoint ∧
      (∀ w ∈ a.waves, w.Nodup ∧ w.Sublist a.keys) ∧
      (∀ key, (∃ w ∈ a.waves, key ∈ w) ↔
        key ∈ (a.reachableProgression (a.closure ∅)).map (·.key)) ∧
      (∀ k key, (∃ w, a.waves[k]? = some w ∧ key ∈ w) ↔
        ∃ l ∈ a.locations, l.key = key ∧ l.holdsProgression = true ∧
          l.gate.opens (a.obtained^[k] ∅) = true ∧
          ∀ j < k, l.gate.opens (a.obtained^[j] ∅) = false) ∧
      (carriesOneStageList ((empty unlocks options).taken history) = true →
        ∀ w ∈ a.waves, w ≠ []) := by
  intro a
  have coherent : a.Coherent := coherent_ofHistory unlocks options history
  refine ⟨waves_pairwise_disjoint coherent, ?_, a.mem_waves_iff, ?_, ?_⟩
  · intro w member
    have ordered := sublist_keys_of_mem_waves member
    exact ⟨coherent.nodup.sublist ordered, ordered⟩
  · intro k key
    rw [mem_wave_iff_entersAfter coherent]
    refine exists_congr fun l => and_congr_right fun _ => and_congr_right fun _ => ?_
    exact ⟨fun enters => ⟨enters.progression, enters.opened, enters.unopened⟩,
      fun ⟨progression, opened, unopened⟩ => ⟨progression, opened, unopened⟩⟩
  · intro agreed w member
    have same : ofHistory unlocks options ((empty unlocks options).taken history) = a :=
      replay_taken _ history
    have uniform : a.Uniform := same ▸ uniform_ofHistory unlocks options agreed
    exact ne_nil_of_mem_waves coherent uniform member

/-- In the small game the second copy of the keycard enters after one round and not before,
    and it stands in the wave of that number; none of the three waves is empty. -/
theorem cardHunt_layers :
    carriesOneStageList ((empty ⟨⟨0⟩, ∅⟩ {}).taken cardHistory) = true ∧
      cardHunt.waves.length = 3 ∧ (∀ w ∈ cardHunt.waves, w ≠ []) ∧
      (∃ w, cardHunt.waves[1]? = some w ∧ .ofRoom 2 1 ∈ w) := by
  have agreed : carriesOneStageList ((empty ⟨⟨0⟩, ∅⟩ {}).taken cardHistory) = true := by
    decide +kernel
  obtain ⟨_, _, _, exact_layer, filled⟩ := waves_are_layers ⟨⟨0⟩, ∅⟩ {} cardHistory
  refine ⟨agreed, by decide +kernel, filled agreed, (exact_layer 1 (.ofRoom 2 1)).mpr ?_⟩
  have found : ∃ l ∈ cardHunt.locations, l.key = .ofRoom 2 1 ∧ l.holdsProgression = true ∧
      l.gate.opens (cardHunt.obtained (∅ : CapSet)) = true ∧ l.gate.opens ∅ = false := by
    decide +kernel
  obtain ⟨l, present, same, progression, opened, unopened⟩ := found
  refine ⟨l, present, same, progression, opened, fun j bounded => ?_⟩
  obtain rfl : j = 0 := Nat.lt_one_iff.mp bounded
  exact unopened

/-- Stages have to agree: a copy without stages opens nothing by itself, but what its chain
    grants for it opens more. -/
example :
    let copy (key : Key) (gate : Gate) (stages : List CapSet) : Change :=
      .add ⟨key, "", "", gate,
        some (.progressive (.upgrade .scienceKeycard) (.ofStages stages)), false⟩
    (ofHistory ⟨⟨0⟩, ∅⟩ {}
      [copy (.spot 1 1 0 0) .free [{.cardD}, {.cardC}],
       copy (.spot 1 2 0 0) (.needs {.cardD}) [],
       copy (.spot 1 3 0 0) (.needs {.cardC}) [{.cardD}]]).waves =
      [[.spot 1 1 0 0], [], [.spot 1 3 0 0]] := by
  decide +kernel

end ItemLogic.Atlas
