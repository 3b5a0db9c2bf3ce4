import ItemLogic.Proofs.FilledWorld
import ItemLogic.Proofs.SavedSession

/-!
# Sessions on the world are resumed from their saves

A session on a built world is started from saves and played key by key, in any order. Its save
names the locations that are picked up. Saving such a session and starting from the save loses
nothing: a fresh world is brought to the very state of the session, and the session itself stays
as it is.

In an arbitrary atlas that fails. The save of the location of a room marks every location in the
room, so the session would come back with more than it had. It cannot happen in the world, where
a slot that stands for a room is alone there. And since a save always marks what the player
starts with, that has to be picked up in the session as well: the world is built so, and neither
kind of move takes a mark away from it.
-/

namespace ItemLogic

/-- What may be done in a session. -/
inductive Move
  /-- The session starts over from a save. -/
  | resume (save : Save)
  /-- The location that a key resolves to is picked up, if there is one. -/
  | pickUp (key : Key)

/-- What a move changes. -/
def Move.change : Move → Change
  | resume save => .resume save
  | pickUp key => .pickUp key

namespace Atlas

/-- The save of a session: the keys of the locations that are picked up. -/
def save (a : Atlas) : Save := .ofKeys ((a.locations.filter (·.pickedUp)).map (·.key))

/-- The marks of a session, key by key. -/
def marks (a : Atlas) : List (Key × Bool) := a.locations.map fun l => (l.key, l.pickedUp)

variable {a w m : Atlas}

/-- Keys do not depend on who has been where. -/
theorem keys_blank (a : Atlas) : a.blank.keys = a.keys := by
  rw [keys, blank, List.map_map]
  rfl

/-- A start from a save does not look at the marks that are there. -/
theorem resume_blank (a : Atlas) (save : Save) : a.blank.resume save = a.resume save := by
  rw [resume, resume, blank, List.map_map]
  rfl

/-- After a start from a save the marks are those of the save and of the start. -/
theorem marks_resume (a : Atlas) (save : Save) :
    (a.resume save).marks = a.keys.map fun key => (key, key = .start || save.isCollected key) := by
  rw [marks, resume, keys, List.map_map, List.map_map]
  rfl

/-- A session on the first atlas has come to the second: only marks have changed, and what the
    player starts with is marked. -/
structure Continues (w m : Atlas) : Prop where
  coherent : m.Coherent
  blank : m.blank = w.blank
  started : ∀ l ∈ m.locations, l.key = .start → l.pickedUp = true

/-- A move continues a session. -/
theorem Continues.after (session : w.Continues m) (move : Move) :
    w.Continues (m.after move.change) := by
  refine ⟨coherent_after session.coherent _, ?_, ?_⟩
  · cases move with
    | resume save => exact (session.coherent.blank_resume save).trans session.blank
    | pickUp key => exact (m.blank_after_pickUp key).trans session.blank
  · intro l member start
    cases move with
    | resume save =>
      obtain ⟨old, _, rfl⟩ := List.mem_map.mp member
      have here : old.key = .start := start
      simp [here]
    | pickUp key =>
      obtain ⟨i, there⟩ := List.mem_iff_getElem?.mp member
      rw [Move.change, getElem?_after_pickUp] at there
      obtain ⟨old, present, rfl⟩ := Option.map_eq_some_iff.mp there
      have marked := session.started old (List.mem_of_getElem? present) start
      simp [marked]

/-- Any moves, one after the other, continue a session. -/
theorem Continues.replay (session : w.Continues m) (moves : List Move) :
    w.Continues (m.replay (moves.map Move.change)) := by
  refine replay_induction session fun b change member continued => ?_
  obtain ⟨move, _, rfl⟩ := List.mem_map.mp member
  exact continued.after move

/-- The save of a session marks just what is marked, where the location of a room is alone. -/
theorem Coherent.isCollected_save (coherent : a.Coherent) (alone : a.RoomsAlone) {l : Location}
    (member : l ∈ a.locations) : a.save.isCollected l.key = l.pickedUp := by
  have picked {key : Key} (same : key = l.key)
      (saved : key ∈ (a.locations.filter (·.pickedUp)).map (·.key)) : l.pickedUp = true := by
    obtain ⟨m, kept, here⟩ := List.mem_map.mp saved
    obtain ⟨present, marked⟩ := List.mem_filter.mp kept
    exact coherent.eq_of_key_eq present member (here.trans same) ▸ marked
  rw [Bool.eq_iff_iff, save, Save.isCollected_ofKeys]
  constructor
  · rintro (own | room)
    · exact picked rfl own
    · have known : l.key.toRoom ∈ a.keys := (List.filter_sublist.map _).subset room
      exact picked (alone l.key (List.mem_map_of_mem member) known) room
  · intro marked
    exact .inl (List.mem_map_of_mem (List.mem_filter.mpr ⟨member, marked⟩))

/-- A session that starts over from its own save stays as it is. -/
theorem Continues.resume_save (session : w.Continues m) (alone : m.RoomsAlone) :
    m.resume m.save = m := by
  have locations : (m.resume m.save).locations = m.locations := by
    refine (List.map_congr_left fun l member => ?_).trans m.locations.map_id
    have marked : (decide (l.key = .start) || m.save.isCollected l.key) = l.pickedUp := by
      rw [session.coherent.isCollected_save alone member]
      by_cases start : l.key = .start
      · simp [start, session.started l member start]
      · simp [start]
    rw [marked]
    rfl
  have chains := session.coherent.chains_resume m.save
  simp only [resume] at locations chains ⊢
  rw [locations, chains]

end Atlas

namespace World

variable {catalog : Catalog} {unlocks : Unlocks} {o : Options} {w : Atlas}

/-- A built world is a session in which nothing has been done yet. -/
theorem continues_build (built : build catalog unlocks o = .ok w)
    (all : w.locations = locations catalog o) : w.Continues w where
  coherent := coherent_of_build built
  blank := rfl
  started l member start := by
    rw [all, mem_locations] at member
    rcases member with ⟨area, known, slot, given, rfl⟩ | ⟨_, rfl⟩
    · refine absurd ?_ (start_not_mem_slots o)
      exact List.mem_flatMap.mpr ⟨area, known, List.mem_map.mpr ⟨slot, given, start⟩⟩
    · rfl

/-- Let a session on a built world start over from any saves and pick up any keys, in any order.
    A fresh world that is started from the save of the session is then what the session has come
    to, and the player has the same in hand. The marks are the same even in a world that is filled
    through another catalog. The session itself is left as it is by a start from its save. -/
theorem session_resumes_from_save (catalog : Catalog) (unlocks : Unlocks) (o : Options)
    (moves : List Move) :
    ∃ w, build catalog unlocks o = .ok w ∧
      let m := w.replay (moves.map Move.change)
      w.resume m.save = m ∧
      (w.resume m.save).available = m.available ∧
      (∀ catalog' unlocks', ∃ fresh, build catalog' unlocks' o = .ok fresh ∧
        (fresh.resume m.save).marks = m.marks) ∧
      m.resume m.save = m := by
  obtain ⟨w, built, all⟩ := exists_build_locations catalog unlocks o
  refine ⟨w, built, ?_⟩
  intro m
  have session : w.Continues m := (continues_build built all).replay moves
  have listed : m.keys = keys o := by
    rw [← m.keys_blank, session.blank, w.keys_blank, Atlas.keys, all, keys_locations]
  have stays : m.resume m.save = m := session.resume_save (roomsAlone_of_keys listed)
  have resumed : w.resume m.save = m := by
    rw [← w.resume_blank, ← session.blank, m.resume_blank, stays]
  refine ⟨resumed, congrArg Atlas.available resumed, ?_, stays⟩
  intro catalog' unlocks'
  obtain ⟨fresh, built', same⟩ := exists_build catalog' unlocks' o
  refine ⟨fresh, built', ?_⟩
  rw [Atlas.marks_resume, same, ← listed, ← Atlas.marks_resume, stays]

end World

end ItemLogic
