import ItemLogic.Call
import ItemLogic.Proofs.Pickups
import ItemLogic.Proofs.Placing
import Mathlib.Data.List.Infix

/-!
# Calls keep the book of locations

An atlas is a book that is only ever written on at its end. Whatever calls were made on it,
in whatever order and with whatever success, its keys are distinct, and looking a key up
through the index finds what a search through the list would find: the location of the key,
or else the one keyed by its room. Every copy of an item found in stages has a chain, and
every chain stands at its first stage, also where the copy that registered it did not.

A call made in place is refused before its first assignment or not at all. For a placement
this rests on its keys being resolved beforehand: placing moves no key, so what resolved then
resolves when its turn comes. A call that is refused therefore leaves the atlas whole, and
the calls that are not refused amount to a history of changes.
-/

namespace ItemLogic

/-- What is never changed about a location: where it is and what guards it. -/
structure Frame where
  key : Key
  area : String
  name : String
  gate : Gate

/-- What is never changed about the location. -/
def Location.frame (l : Location) : Frame := ⟨l.key, l.area, l.name, l.gate⟩

namespace InPlace

variable {a : Atlas}

/-- Adding in place is refused before anything is registered. -/
theorem run_add (a : Atlas) (l : Location) : (add l).run a = a.settled (a.add l) := by
  rw [Atlas.add]
  split
  · rename_i known
    simp [add, known, Atlas.settled]
  · rename_i new
    simp [add, new, register, Atlas.settled]

/-- Placing in place is refused before anything is registered. -/
theorem run_place (a : Atlas) (key : Key) (item : Option Item) :
    (place key item).run a = a.settled (a.place key item) := by
  rw [Atlas.place]
  cases resolved : a.position? key with
  | none => simp [place, resolved, Atlas.settled]
  | some i => simp [place, resolved, register, Atlas.settled]

/-- Placing in place succeeds where the key resolves, and leaves what the change leaves. -/
theorem run_place_of_resolved {key : Key} (resolved : (a.position? key).isSome)
    (item : Option Item) : (place key item).run a = .ok () (a.after (.place key item)) := by
  obtain ⟨i, found⟩ := Option.isSome_iff_exists.mp resolved
  rw [run_place, Atlas.after_place found, Atlas.place_of_resolved found]
  rfl

/-- Entries whose keys resolve are placed one after the other without a fault. -/
theorem run_forM_place (catalog : Catalog) {entries : List (Key × Option ItemId)}
    (resolved : ∀ entry ∈ entries, (a.position? entry.1).isSome) :
    (entries.forM fun entry => place entry.1 (entry.2.map catalog)).run a =
      .ok () (a.replay (entries.map fun entry => .place entry.1 (entry.2.map catalog))) := by
  induction entries generalizing a with
  | nil => rfl
  | cons entry rest ih =>
    have here := run_place_of_resolved (resolved entry List.mem_cons_self)
      (entry.2.map catalog)
    change ((place entry.1 (entry.2.map catalog) >>= fun _ =>
      rest.forM fun other => place other.1 (other.2.map catalog)).run a) = _
    rw [EStateM.run_bind, here]
    exact ih fun other member =>
      Atlas.isSome_position?_after_place _ (resolved other (List.mem_cons_of_mem entry member))

/-- Applying in place is refused before the first entry is placed. -/
theorem run_apply (a : Atlas) (p : Placement) (catalog : Catalog) :
    (apply p catalog).run a = a.settled (p.apply catalog a) := by
  cases outcome : p.unresolved? a with
  | some key =>
    rw [Placement.apply_of_unresolved outcome]
    simp [apply, outcome, Atlas.settled]
  | none =>
    have placed := run_forM_place catalog fun entry member =>
      Placement.position?_of_resolved outcome member
    rw [Placement.apply_of_resolved outcome, apply, EStateM.run_bind, EStateM.run_get]
    simp only [outcome]
    exact placed

/-- Picking up in place changes the atlas as picking up does. -/
theorem run_pickUp (a : Atlas) (key : Key) :
    (pickUp key).run a = .ok (a.pickUp? key).isSome (a.after (.pickUp key)) := by
  cases resolved : a.position? key with
  | none => simp [pickUp, resolved, Atlas.after, Atlas.pickUp?]
  | some i =>
    simp only [pickUp, EStateM.run_bind, EStateM.run_get, resolved, Atlas.after,
      Atlas.pickUp?, Option.map_some, Option.isSome_some, Option.getD_some]
    rfl

end InPlace

/-- A call made in place is settled before its first assignment: it does what its outcome
    says, or is refused with the atlas as it was. -/
theorem Call.run_perform (a : Atlas) (call : Call) :
    call.perform.run a = a.settled (call.outcome a) := by
  cases call with
  | change change =>
    cases change with
    | add l => exact InPlace.run_add a l
    | place key item => exact InPlace.run_place a key item
    | pickUp key =>
      rw [perform, EStateM.run_bind, InPlace.run_pickUp]
      rfl
    | resume save => rfl
    | setGoal goal => rfl
  | apply p catalog => exact InPlace.run_apply a p catalog

namespace Atlas

variable {a b : Atlas}

/-- What never changes about the locations, in order. -/
def frames (a : Atlas) : List Frame := a.locations.map Location.frame

/-- A search through the list of locations: for the key, or else for the key of its room. -/
def search (a : Atlas) (key : Key) : Option Location :=
  (a.locations.find? fun l => l.key = key).or (a.locations.find? fun l => l.key = key.toRoom)

/-- A call leaves what its outcome says, and without one what was there. -/
theorem left_eq (a : Atlas) (call : Call) : a.left call = (call.outcome a).toOption.getD a := by
  rw [left, Call.run_perform]
  cases call.outcome a <;> rfl

/-- A call that is a single change leaves what the change makes of the atlas, which is nothing new
    where it is refused. -/
theorem left_change (a : Atlas) (change : Change) : a.left (.change change) = a.after change := by
  rw [left_eq]
  cases change <;> rfl

/-- A placement leaves what its entries make of the atlas one by one, or nothing new. -/
theorem left_apply (a : Atlas) (p : Placement) (catalog : Catalog) :
    a.left (.apply p catalog) = a.replay (p.changes catalog) ∨
      a.left (.apply p catalog) = a := by
  rw [left_eq, Call.outcome]
  cases outcome : p.unresolved? a with
  | some key =>
    rw [Placement.apply_of_unresolved outcome]
    exact .inr rfl
  | none =>
    rw [Placement.apply_of_resolved outcome]
    exact .inl rfl

/-- Calls amount to a history of changes. -/
theorem exists_afterCalls_eq_replay (a : Atlas) (calls : List Call) :
    ∃ history, a.afterCalls calls = a.replay history := by
  induction calls generalizing a with
  | nil => exact ⟨[], rfl⟩
  | cons call rest ih =>
    obtain ⟨later, same⟩ := ih (a.left call)
    obtain ⟨now, here⟩ : ∃ now, a.left call = a.replay now := by
      cases call with
      | change change => exact ⟨[change], a.left_change change⟩
      | apply p catalog =>
        rcases a.left_apply p catalog with applied | refused
        · exact ⟨_, applied⟩
        · exact ⟨[], refused⟩
    refine ⟨now ++ later, ?_⟩
    rw [replay_append, ← here, ← same]
    rfl

/-- Whatever calls led to an atlas, it is coherent. -/
theorem coherent_afterCalls (unlocks : Unlocks) (options : Options) (calls : List Call) :
    ((empty unlocks options).afterCalls calls).Coherent := by
  obtain ⟨history, same⟩ := (empty unlocks options).exists_afterCalls_eq_replay calls
  rw [same]
  exact coherent_ofHistory unlocks options history

/-- A look-up by the index alone finds the location with the key. -/
theorem Coherent.bind_index (coherent : a.Coherent) (key : Key) :
    ((a.index.find? key).bind fun i => a.locations[i]?) =
      a.locations.find? fun l => l.key = key := by
  cases found : a.locations.find? fun l => l.key = key with
  | some l =>
    have present := List.mem_of_find?_eq_some found
    have same : l.key = key := by simpa using List.find?_some found
    obtain ⟨i, here⟩ := List.mem_iff_getElem?.mp present
    have place : a.keys[i]? = some key := by simp [keys, here, same]
    rw [(coherent.index_exact key i).mpr place]
    exact here
  | none =>
    cases indexed : a.index.find? key with
    | none => rfl
    | some i =>
      obtain ⟨l, here, same⟩ := coherent.exists_location_of_index indexed
      have missed := List.find?_eq_none.mp found l (List.mem_of_getElem? here)
      exact absurd same (by simpa using missed)

/-- Looking a key up through the index finds what a search through the list finds. -/
theorem Coherent.find?_eq_search (coherent : a.Coherent) (key : Key) :
    a.find? key = a.search key := by
  rw [search, ← coherent.bind_index key, ← coherent.bind_index key.toRoom, find?, position?]
  cases indexed : a.index.find? key with
  | none => rfl
  | some i =>
    obtain ⟨l, here, _⟩ := coherent.exists_location_of_index indexed
    simp [here]

/-- Adding is refused exactly where the key is there already. -/
theorem Coherent.add_refused_iff (coherent : a.Coherent) (l : Location) :
    (∃ fault, a.add l = .error fault) ↔ l.key ∈ a.keys := by
  rw [← coherent.contains_iff, add]
  split <;> simp_all

/-- Placing is refused exactly where a search finds nothing. -/
theorem Coherent.place_refused_iff (coherent : a.Coherent) (key : Key) (item : Option Item) :
    (∃ fault, a.place key item = .error fault) ↔ a.search key = none := by
  rw [← coherent.find?_eq_search, ← Option.isNone_iff_eq_none, ← Option.isSome_eq_false_iff,
    coherent.isSome_find?, place]
  cases a.position? key <;> simp

/-- Starting a session changes nothing but the marks. -/
theorem Coherent.blank_resume (coherent : a.Coherent) (save : Save) :
    (a.resume save).blank = a.blank := by
  have chains := coherent.chains_resume save
  have locations : (a.resume save).locations.map Location.blank =
      a.locations.map Location.blank := by
    rw [resume, List.map_map]
    rfl
  simp only [blank, locations, chains]
  rfl

/-- What lies in the locations does not show in their frames. -/
theorem frames_emptied (a : Atlas) : a.emptied.frames = a.frames := by
  rw [frames, emptied, List.map_map]
  rfl

/-- Nor does who has been there. -/
theorem frames_blank (a : Atlas) : a.blank.frames = a.frames := by
  rw [frames, blank, List.map_map]
  rfl

/-- A change writes nothing into the frames but one more at their end. -/
theorem Coherent.frames_after (coherent : a.Coherent) (change : Change) :
    a.frames <+: (a.after change).frames := by
  cases change with
  | add l =>
    cases outcome : a.add l with
    | error fault => simp [after, outcome, Except.toOption]
    | ok b =>
      simp only [after, outcome, Except.toOption, Option.getD_some]
      rw [add] at outcome
      split at outcome
      · cases outcome
      · cases outcome
        simp [frames]
  | place key item => rw [← frames_emptied, ← emptied_after_place a key item, frames_emptied]
  | pickUp key => rw [← frames_blank, ← blank_after_pickUp a key, frames_blank]
  | resume save => rw [← frames_blank, ← coherent.blank_resume save, frames_blank, after]
  | setGoal goal => exact List.prefix_rfl

/-- A history writes on at the end of the frames. -/
theorem Coherent.frames_replay (coherent : a.Coherent) (history : List Change) :
    a.frames <+: (a.replay history).frames := by
  induction history generalizing a with
  | nil => exact List.prefix_rfl
  | cons change rest ih =>
    exact (coherent.frames_after change).trans (ih (coherent_after coherent change))

/-- A placement changes nothing but what lies where, whether or not it is refused. -/
theorem emptied_left_apply (a : Atlas) (p : Placement) (catalog : Catalog) :
    (a.left (.apply p catalog)).emptied = a.emptied := by
  rcases a.left_apply p catalog with applied | refused
  · rw [applied, emptied_replay_changes]
  · rw [refused]

/-- Whatever calls an atlas comes from, refused ones included:

    * its keys are distinct, a look-up through the index finds what a search of the list
      finds, and the key of a location finds that location;
    * a copy that lies somewhere has a chain, and every chain stands at its first stage;
    * later calls only append to the frames of its locations; placing and applying change
      what lies where, and picking up and starting a session change who has been where;
    * adding is refused where the key is there, placing where the key finds nothing, and a
      refused call leaves the atlas whole. -/
theorem calls_keep_the_book (unlocks : Unlocks) (options : Options) (calls : List Call) :
    let a := (empty unlocks options).afterCalls calls
    (a.keys.Nodup ∧ (∀ key, a.find? key = a.search key) ∧
      ∀ l ∈ a.locations, a.find? l.key = some l) ∧
    ((∀ l ∈ a.locations, ∀ id chain, l.item = some (.progressive id chain) →
        (a.chain? id).isSome) ∧
      ∀ id chain, a.chain? id = some chain → chain.cursor = 0) ∧
    ((∀ more, a.frames <+: (a.afterCalls more).frames) ∧
      (∀ key item, (a.left (.change (.place key item))).emptied = a.emptied) ∧
      (∀ p catalog, (a.left (.apply p catalog)).emptied = a.emptied) ∧
      (∀ key, (a.left (.change (.pickUp key))).blank = a.blank) ∧
      ∀ save, (a.left (.change (.resume save))).blank = a.blank) ∧
    ((∀ l, (∃ fault, a.add l = .error fault) ↔ l.key ∈ a.keys) ∧
      (∀ key item, (∃ fault, a.place key item = .error fault) ↔ a.search key = none) ∧
      ∀ call : Call, call.perform.run a = a.settled (call.outcome a)) := by
  intro a
  -- Whatever was refused on the way, what is left is the atlas of a history.
  have coherent : a.Coherent := by
    obtain ⟨history, same⟩ := (empty unlocks options).exists_afterCalls_eq_replay calls
    have reached : a = ofHistory unlocks options history := same
    exact reached ▸ coherent_ofHistory unlocks options history
  refine ⟨⟨coherent.nodup, coherent.find?_eq_search, fun l => coherent.find?_key⟩,
    ⟨coherent.registered, fun id chain => coherent.cursor_chain?⟩,
    ⟨?_, ?_, a.emptied_left_apply, ?_, ?_⟩,
    ⟨coherent.add_refused_iff, coherent.place_refused_iff, Call.run_perform a⟩⟩
  · intro more
    obtain ⟨later, same⟩ := a.exists_afterCalls_eq_replay more
    rw [same]
    exact coherent.frames_replay later
  · intro key item
    rw [left_change, emptied_after_place]
  · intro key
    rw [left_change, blank_after_pickUp]
  · intro save
    rw [left_change]
    exact coherent.blank_resume save

/-- A keycard that stood at its second stage when it was added. -/
def wornCard : Location :=
  ⟨.ofRoom 1 1, "", "", .free,
    some (.progressive (.upgrade .scienceKeycard) ⟨[{.cardD}, {.cardC}], 1⟩), false⟩

/-- Adding the card, a placement that is refused for its second key after its first would
    have taken the card away, and picking the card up by a slot of its room. -/
def wornCardCalls : List Call :=
  [.change (.add wornCard),
   .apply ⟨.ofList [(.ofRoom 1 1, none), (.ofRoom 9 9, none)]⟩ (.standard {} ⟨⟨0⟩, ∅⟩),
   .change (.pickUp (.spot 1 1 0 0))]

/-- The card is still there after the refused placement, its chain stands at the first
    stage, and it cannot be added once more. -/
theorem wornCard_kept :
    let a := (empty ⟨⟨0⟩, ∅⟩ {}).afterCalls wornCardCalls
    a.locations = [{ wornCard with pickedUp := true }] ∧
      (∃ chain, a.chain? (.upgrade .scienceKeycard) = some chain ∧ chain.cursor = 0) ∧
      (Call.change (.add wornCard)).perform.run a =
        .error (.duplicateLocation (.ofRoom 1 1)) a := by
  intro a
  obtain ⟨_, ⟨registered, restarted⟩, _, _, _, settled⟩ :=
    calls_keep_the_book ⟨⟨0⟩, ∅⟩ {} wornCardCalls
  have there : a.locations = [{ wornCard with pickedUp := true }] := by decide +kernel
  have present : { wornCard with pickedUp := true } ∈ a.locations := by
    rw [there]
    exact List.mem_singleton_self _
  obtain ⟨chain, found⟩ := Option.isSome_iff_exists.mp (registered _ present _ _ rfl)
  exact ⟨there, ⟨chain, found, restarted _ chain found⟩, settled (.change (.add wornCard))⟩

end Atlas

end ItemLogic
