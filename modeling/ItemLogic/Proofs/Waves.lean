import ItemLogic.Proofs.Play
import ItemLogic.Proofs.Provenance
import Mathlib.Data.List.TakeWhile

/-!
# The log can be played

The waves of a log list progression only, while the rounds they are read off collect from
every reachable location. A player who picks up just what the log lists holds the same
nevertheless: after the first waves, in any order within and among them, exactly the set
with which exploration enters the next round. Each location of a wave is therefore open as
soon as the earlier waves are picked up, none is open one wave earlier, and at the end the
player holds the closure of nothing.

This rests on copies of one item having the same stages. A copy that claims to grant
nothing is left out of the log although its chain may grant something for it, and the
player would then hold less than exploration counts on.
-/

namespace ItemLogic.Atlas

/-- What a fresh player holds after some rounds. -/
def heldAfter (a : Atlas) (rounds : Nat) : CapSet := a.obtained^[rounds] ∅

/-- Whether a location is progression that was in reach in an earlier round. -/
def inReachBefore (a : Atlas) : Nat → Location → Bool
  | 0, _ => false
  | round + 1, l => l.holdsProgression && l.gate.opens (a.heldAfter round)

/-- The keys of the progression that was in reach in an earlier round. -/
def keysBefore (a : Atlas) (round : Nat) : List Key :=
  (a.locations.filter (a.inReachBefore round)).map (·.key)

/-- The keys of a list are those of some waves, in any order. -/
def Visits (order : List Key) (waves : List (List Key)) : Prop :=
  ∀ key, key ∈ order ↔ ∃ wave ∈ waves, key ∈ wave

variable {a : Atlas} {k : Nat} {w : List Key} {order : List Key}

/-- Nothing is lost from one round to the next. -/
theorem heldAfter_subset_succ (a : Atlas) (k : Nat) : a.heldAfter k ⊆ a.heldAfter (k + 1) := by
  rw [heldAfter, heldAfter, Function.iterate_succ_apply']
  exact (a.rising_obtained.iterate k).grows

/-- The rounds of a fresh player are entered with what is held by then. -/
theorem eq_heldAfter_of_freshAscent {held : CapSet} (found : a.freshAscent[k]? = some held) :
    held = a.heldAfter k :=
  ascentWithin_getElem? found

/-- What was in reach before a round is in reach before the next. -/
theorem inReachBefore_succ {l : Location} (before : a.inReachBefore k l = true) :
    a.inReachBefore (k + 1) l = true := by
  cases k with
  | zero => cases before
  | succ k =>
    obtain ⟨progression, opened⟩ := Bool.and_eq_true_iff.mp before
    exact Bool.and_eq_true_iff.mpr
      ⟨progression, Gate.opens_mono (a.heldAfter_subset_succ k) opened⟩

/-- The keys before a round belong to locations that were in reach in an earlier one. -/
theorem mem_keysBefore {key : Key} :
    key ∈ a.keysBefore k ↔ ∃ l ∈ a.locations, a.inReachBefore k l = true ∧ l.key = key := by
  simp only [keysBefore, List.mem_map, List.mem_filter, and_assoc]

/-- The keys before a round are among those before the next. -/
theorem keysBefore_subset_succ (a : Atlas) (k : Nat) : a.keysBefore k ⊆ a.keysBefore (k + 1) := by
  intro key member
  obtain ⟨l, present, before, same⟩ := mem_keysBefore.mp member
  exact mem_keysBefore.mpr ⟨l, present, inReachBefore_succ before, same⟩

/-- The keys before a later round are those of the progression that its held set reaches. -/
theorem keysBefore_succ (a : Atlas) (k : Nat) :
    a.keysBefore (k + 1) = (a.reachableProgression (a.heldAfter k)).map (·.key) := by
  rw [keysBefore, reachableProgression, reachable, List.filter_filter]
  rfl

/-- A wave that is not the first belongs to two neighbouring sets. -/
theorem exists_of_wavesAlong_getElem? {before : Option CapSet} {sets : List CapSet}
    (found : (a.wavesAlong before sets)[k + 1]? = some w) :
    ∃ earlier held, sets[k]? = some earlier ∧ sets[k + 1]? = some held ∧
      w = a.wave (some earlier) held := by
  induction sets generalizing before k with
  | nil => simp [wavesAlong] at found
  | cons earlier rest ih =>
    cases k with
    | zero =>
      cases rest with
      | nil => simp [wavesAlong] at found
      | cons held rest => exact ⟨earlier, held, rfl, rfl, (Option.some.inj found).symm⟩
    | succ k =>
      obtain ⟨one, next, here, there, wave⟩ := ih found
      exact ⟨one, next, here, there, wave⟩

/-- There is one wave for each set. -/
theorem length_wavesAlong (before : Option CapSet) (sets : List CapSet) :
    (a.wavesAlong before sets).length = sets.length := by
  induction sets generalizing before with
  | nil => rfl
  | cons held rest ih => simp [wavesAlong, ih]

/-- There is one round for each set of a fresh player. -/
theorem length_rounds (a : Atlas) : a.rounds.length = a.freshAscent.length :=
  length_wavesAlong none a.freshAscent

/-- The wave of a round lists the progression that is in reach in this round for the first
    time. -/
theorem mem_round (found : a.rounds[k]? = some w) {key : Key} :
    key ∈ w ↔ key ∈ a.keysBefore (k + 1) ∧ key ∉ a.keysBefore k := by
  cases k with
  | zero =>
    have first : a.freshAscent ≠ [] := ascent_ne_nil a.obtained ∅
    obtain ⟨held, rest, ascent⟩ := List.exists_cons_of_ne_nil first
    have start : held = a.heldAfter 0 := eq_heldAfter_of_freshAscent (by rw [ascent]; rfl)
    rw [rounds, ascent] at found
    obtain rfl := Option.some.inj found
    rw [keysBefore_succ, start]
    simp [wave, keysBefore, inReachBefore]
  | succ k =>
    obtain ⟨earlier, held, here, there, rfl⟩ := exists_of_wavesAlong_getElem? found
    obtain rfl := eq_heldAfter_of_freshAscent here
    obtain rfl := eq_heldAfter_of_freshAscent there
    rw [keysBefore_succ, keysBefore_succ]
    simp [wave]

/-- The first rounds together list what was in reach before the next one. -/
theorem mem_rounds_take (bounded : k ≤ a.rounds.length) (key : Key) :
    (∃ wave ∈ a.rounds.take k, key ∈ wave) ↔ key ∈ a.keysBefore k := by
  induction k with
  | zero => simp [keysBefore, inReachBefore]
  | succ k ih =>
    have found : a.rounds[k]? = some a.rounds[k] := List.getElem?_eq_getElem bounded
    rw [List.take_add_one, found, Option.toList_some]
    simp only [List.mem_append, List.mem_singleton, or_and_right, exists_or, exists_eq_left]
    rw [ih (Nat.le_of_succ_le bounded), mem_round found]
    constructor
    · rintro (earlier | ⟨now, _⟩)
      · exact a.keysBefore_subset_succ k earlier
      · exact now
    · intro now
      by_cases earlier : key ∈ a.keysBefore k
      · exact .inl earlier
      · exact .inr ⟨now, earlier⟩

/-- The progression in reach before a round grants what exploration enters the round with. -/
theorem granted_inReachBefore (uniform : a.Uniform) (k : Nat) :
    a.granted (a.locations.filter (a.inReachBefore k)) = a.heldAfter k := by
  cases k with
  | zero =>
    have none : a.locations.filter (a.inReachBefore 0) = [] :=
      List.filter_eq_nil_iff.mpr fun _ _ => Bool.false_ne_true
    rw [none]
    rfl
  | succ k =>
    have within : ∀ l ∈ a.reachable (a.heldAfter k), l ∈ a.locations := fun l member =>
      List.mem_of_mem_filter member
    have skipped := granted_filter_holdsProgression uniform within
    rw [reachable, List.filter_filter] at skipped
    rw [heldAfter, Function.iterate_succ_apply']
    exact skipped

/-- A player who has picked up what the first rounds list holds what exploration does. -/
theorem available_after_rounds (coherent : a.Coherent) (uniform : a.Uniform)
    (fresh : ∀ l ∈ a.locations, l.pickedUp = false) (bounded : k ≤ a.rounds.length)
    (visited : Visits order (a.rounds.take k)) : (a.pickUpAll order).available = a.heldAfter k := by
  rw [← granted_inReachBefore uniform k]
  refine available_pickUpAll coherent fresh fun key => ?_
  rw [visited key, mem_rounds_take bounded]
  rfl

/-- The rounds are the waves of the log and then empty ones. -/
theorem exists_rounds_eq_append (a : Atlas) :
    ∃ rest, a.rounds = a.waves ++ rest ∧ ∀ wave ∈ rest, wave = [] := by
  refine ⟨(a.rounds.reverse.takeWhile List.isEmpty).reverse, ?_, fun wave member => ?_⟩
  · rw [waves, trimEmpty, ← List.reverse_append, List.takeWhile_append_dropWhile,
      List.reverse_reverse]
  · exact List.isEmpty_iff.mp (List.mem_takeWhile_imp (List.mem_reverse.mp member))

/-- The first waves of the log are the first rounds. -/
theorem take_waves (bounded : k ≤ a.waves.length) :
    k ≤ a.rounds.length ∧ a.waves.take k = a.rounds.take k := by
  obtain ⟨rest, whole, _⟩ := a.exists_rounds_eq_append
  rw [whole, List.take_append_of_le_length bounded, List.length_append]
  exact ⟨Nat.le_add_right_of_le bounded, rfl⟩

/-- A wave of the log is the wave of its round. -/
theorem round_of_waves_getElem? (found : a.waves[k]? = some w) : a.rounds[k]? = some w := by
  obtain ⟨rest, whole, _⟩ := a.exists_rounds_eq_append
  obtain ⟨bounded, _⟩ := List.getElem?_eq_some_iff.mp found
  rw [whole, List.getElem?_append_left bounded]
  exact found

/-- A key of a wave belongs to a location that the held set of its round opens, and that no
    earlier one does. -/
theorem exists_location_of_mem_wave (coherent : a.Coherent) (found : a.waves[k]? = some w)
    {key : Key} (member : key ∈ w) :
    ∃ l, a.find? key = some l ∧ l.gate.opens (a.heldAfter k) = true ∧
      a.inReachBefore k l = false ∧ l.holdsProgression = true := by
  obtain ⟨now, new⟩ := (mem_round (round_of_waves_getElem? found)).mp member
  obtain ⟨l, present, reached, rfl⟩ := mem_keysBefore.mp now
  obtain ⟨progression, opened⟩ := Bool.and_eq_true_iff.mp reached
  refine ⟨l, coherent.find?_key present, opened, ?_, progression⟩
  rw [Bool.eq_false_iff]
  intro before
  exact new (mem_keysBefore.mpr ⟨l, present, before, rfl⟩)

/-- A player who has picked up the first waves holds what exploration does by then. -/
theorem available_after_waves (coherent : a.Coherent) (uniform : a.Uniform)
    (fresh : ∀ l ∈ a.locations, l.pickedUp = false) (bounded : k ≤ a.waves.length)
    (visited : Visits order (a.waves.take k)) : (a.pickUpAll order).available = a.heldAfter k := by
  obtain ⟨within, same⟩ := take_waves bounded
  exact available_after_rounds coherent uniform fresh within (same ▸ visited)

/-- The rounds list nothing that the waves do not. -/
theorem exists_mem_rounds_iff (a : Atlas) (key : Key) :
    (∃ wave ∈ a.rounds, key ∈ wave) ↔ ∃ wave ∈ a.waves, key ∈ wave := by
  obtain ⟨rest, whole, empty⟩ := a.exists_rounds_eq_append
  have nowhere : ¬ ∃ wave ∈ rest, key ∈ wave := by
    rintro ⟨wave, member, listed⟩
    rw [empty wave member] at listed
    cases listed
  rw [whole]
  simp only [List.mem_append, or_and_right, exists_or, nowhere, or_false]

/-- Whoever visits all waves visits all rounds, since no round has a key that no wave has. -/
theorem Visits.rounds (visited : Visits order a.waves) : Visits order a.rounds := fun key =>
  (visited key).trans (a.exists_mem_rounds_iff key).symm

/-- After all rounds the closure of nothing is held. -/
theorem heldAfter_length_rounds (a : Atlas) : a.heldAfter a.rounds.length = a.closure ∅ := by
  rw [length_rounds, closure_empty_eq_summit]
  exact iterate_length_ascent a.rising_obtained

/-- Where the history carries one list of stages for each item and nothing is picked up, the
    log can be played wave after wave. After the waves before it, in any order, every
    location of a wave is open, and without the last of them none is. After all waves the
    player holds the closure of nothing. -/
theorem waves_played_in_turn (unlocks : Unlocks) (options : Options) (history : List Change)
    (agreed : carriesOneStageList history = true)
    (fresh : ∀ l ∈ (ofHistory unlocks options history).locations, l.pickedUp = false) :
    let a := ofHistory unlocks options history
    (∀ k w, a.waves[k]? = some w → ∀ order, Visits order (a.waves.take k) → ∀ key ∈ w,
        ∃ l, a.find? key = some l ∧ l.gate.opens (a.pickUpAll order).available = true) ∧
      (∀ k w, a.waves[k + 1]? = some w → ∀ order, Visits order (a.waves.take k) → ∀ key ∈ w,
        ∃ l, a.find? key = some l ∧ l.gate.opens (a.pickUpAll order).available = false) ∧
      ∀ order, Visits order a.waves → (a.pickUpAll order).available = a.closure ∅ := by
  intro a
  have coherent : a.Coherent := coherent_ofHistory unlocks options history
  have uniform : a.Uniform := uniform_ofHistory unlocks options agreed
  refine ⟨?_, ?_, ?_⟩
  · intro k w found order visited key member
    obtain ⟨bounded, _⟩ := List.getElem?_eq_some_iff.mp found
    have held := available_after_waves coherent uniform fresh (Nat.le_of_lt bounded) visited
    obtain ⟨l, resolved, opened, _, _⟩ := exists_location_of_mem_wave coherent found member
    refine ⟨l, resolved, ?_⟩
    rw [held]
    exact opened
  · intro k w found order visited key member
    obtain ⟨bounded, _⟩ := List.getElem?_eq_some_iff.mp found
    have earlier : k ≤ a.waves.length := by omega
    have held := available_after_waves coherent uniform fresh earlier visited
    obtain ⟨l, resolved, _, new, progression⟩ := exists_location_of_mem_wave coherent found member
    refine ⟨l, resolved, ?_⟩
    rw [held]
    simpa [inReachBefore, progression] using new
  · intro order visited
    have all : Visits order (a.rounds.take a.rounds.length) := by
      rw [List.take_length]
      exact visited.rounds
    rw [available_after_rounds coherent uniform fresh (Nat.le_refl _) all]
    exact a.heldAfter_length_rounds

/-- The log of the small game has three waves, and the second copy of the keycard is open
    once the first is picked up. -/
theorem cardHunt_played_in_turn :
    carriesOneStageList cardHistory = true ∧
      (∀ l ∈ cardHunt.locations, l.pickedUp = false) ∧
      cardHunt.waves = [[.spot 1 1 0 0], [.ofRoom 2 1], [.spot 1 2 0 0]] ∧
      (∃ l, cardHunt.find? (.ofRoom 2 1) = some l ∧
        l.gate.opens (cardHunt.pickUpAll [.spot 1 1 0 0]).available = true) ∧
      (∃ l, cardHunt.find? (.ofRoom 2 1) = some l ∧
        l.gate.opens (cardHunt.pickUpAll []).available = false) ∧
      (cardHunt.pickUpAll [.spot 1 2 0 0, .spot 1 1 0 0, .ofRoom 2 1]).available =
        cardHunt.closure ∅ := by
  have agreed : carriesOneStageList cardHistory = true := by decide +kernel
  have fresh : ∀ l ∈ cardHunt.locations, l.pickedUp = false := by decide +kernel
  have waves : cardHunt.waves = [[.spot 1 1 0 0], [.ofRoom 2 1], [.spot 1 2 0 0]] := by
    decide +kernel
  obtain ⟨opened, closed, whole⟩ := waves_played_in_turn ⟨⟨0⟩, ∅⟩ {} cardHistory agreed fresh
  refine ⟨agreed, fresh, waves, ?_, ?_, ?_⟩
  · refine opened 1 [.ofRoom 2 1] ?_ [.spot 1 1 0 0] ?_ (.ofRoom 2 1) (List.mem_singleton_self _)
    · exact congrArg (·[1]?) waves
    · show Visits _ (cardHunt.waves.take 1)
      rw [waves]
      simp [Visits]
  · refine closed 0 [.ofRoom 2 1] ?_ [] ?_ (.ofRoom 2 1) (List.mem_singleton_self _)
    · exact congrArg (·[1]?) waves
    · simp [Visits]
  · refine whole _ ?_
    show Visits _ cardHunt.waves
    rw [waves]
    intro key
    simp only [List.mem_cons, List.not_mem_nil, or_false, exists_eq_or_imp, exists_eq_left]
    tauto

/-- Stages have to agree: a second copy without stages is not listed, but counts. -/
example :
    let copy (key : Key) (stages : List CapSet) : Change :=
      .add ⟨key, "", "", .free, some (.progressive (.upgrade .scienceKeycard) (.ofStages stages)),
        false⟩
    let a := ofHistory ⟨⟨0⟩, ∅⟩ {}
      [copy (.spot 1 1 0 0) [{.cardD}, {.cardC}], copy (.spot 1 2 0 0) []]
    (a.pickUpAll a.waves.flatten).available ≠ a.closure ∅ := by
  decide +kernel

end ItemLogic.Atlas
