import ItemLogic.Key.Lemmas
import ItemLogic.Proofs.Calls

/-!
# Saves against sessions

A session may be played, key by key, or started from a save of the same keys. Both mark the
slot that the player starts with, and both mark a location whose own key is picked up. They
resolve other keys in opposite directions. A session that is played goes from a key to the
location of its room, where no location has the key itself. A save goes from a location to the
key of its room. The two agree wherever the session came to a location by the key of the
location. They differ where it came to the location of a room by a spot in the room: the save
of the spot does not mark the room.
-/

namespace ItemLogic

/-- A save of some keys says of a key that it is collected when the key or its room is among
    them. -/
theorem Save.isCollected_ofKeys {keys : List Key} {key : Key} :
    (Save.ofKeys keys).isCollected key = true ↔ key ∈ keys ∨ key.toRoom ∈ keys := by
  rw [isCollected, Bool.or_eq_true]
  exact or_congr KeySet.contains_ofKeys KeySet.contains_ofKeys

namespace Atlas

variable {a : Atlas}

/-- A location that a session has marked, played from the start, is marked by the save of the
    played keys unless it stands for a room whose own key was not played. -/
theorem marked_of_played {order : List Key} {l : Location}
    (played : l.key = .start ∨ ∃ key ∈ order, key = l.key ∨ key.toRoom = l.key) :
    l.key = .start ∨ (Save.ofKeys order).isCollected l.key = true ↔
      (l.key.isRoom = true → l.key ∈ order) := by
  rw [Save.isCollected_ofKeys]
  constructor
  · rintro (start | listed | roomListed) room
    · rw [start] at room
      cases room
    · exact listed
    · rwa [Key.toRoom_of_isRoom room] at roomListed
  · intro spelled
    rcases played with start | ⟨key, listed, same | inRoom⟩
    · exact .inl start
    · exact .inr (.inl (same ▸ listed))
    · have room : l.key.isRoom = true := inRoom ▸ rfl
      exact .inr (.inl (spelled room))

/-- Whatever calls an atlas comes from, let a session on it be played from the start, key by
    key. Each location that the session marks is there in the session that starts from the save
    of the same keys, and it is marked there exactly when it is not the location of a room, or
    is one and the key of the room is among the played keys. -/
theorem saved_session_marks (unlocks : Unlocks) (options : Options) (calls : List Call)
    (order : List Key) :
    let a := (empty unlocks options).afterCalls calls
    let played := (a.resume (.ofKeys [])).pickUpAll order
    let loaded := a.resume (.ofKeys order)
    ∀ m ∈ played.locations, m.pickedUp = true →
      ∃ n ∈ loaded.locations, n.key = m.key ∧
        (n.pickedUp = true ↔ (n.key.isRoom = true → n.key ∈ order)) := by
  intro a played loaded m member marked
  have coherent : a.Coherent := coherent_afterCalls unlocks options calls
  obtain ⟨i, here⟩ := List.mem_iff_getElem?.mp member
  rw [getElem?_pickUpAll, resume, List.getElem?_map, Option.map_map] at here
  obtain ⟨l, there, rfl⟩ := Option.map_eq_some_iff.mp here
  refine ⟨_, List.mem_map_of_mem (List.mem_of_getElem? there), rfl, ?_⟩
  have visited : l.key = .start ∨ ∃ key ∈ order, key = l.key ∨ key.toRoom = l.key := by
    simp only [Function.comp_apply, Bool.or_eq_true, decide_eq_true_eq, List.any_eq_true,
      Save.isCollected_ofKeys, List.not_mem_nil, or_false] at marked
    obtain start | ⟨key, listed, resolved⟩ := marked
    · exact .inl start
    · refine .inr ⟨key, listed, ?_⟩
      exact ((coherent.position?_eq_some_iff there key).mp resolved).imp_right And.right
  simpa only [Bool.or_eq_true, decide_eq_true_eq] using marked_of_played visited

/-- The room of the golden idol, which is a location as a whole, and a chest in another room. -/
def idolAndChest : List Call :=
  [.change (.add ⟨.ofRoom 5 5, "", "", .free, none, false⟩),
   .change (.add ⟨.spot 1 9 600 162, "", "", .free, none, false⟩)]

/-- The chest, played by its own key, is marked by the save as well. -/
theorem savedChest_marked :
    let a := (empty ⟨⟨0⟩, ∅⟩ {}).afterCalls idolAndChest
    let order := [Key.spot 5 5 300 140, .spot 1 9 600 162]
    ∃ m ∈ ((a.resume (.ofKeys [])).pickUpAll order).locations,
      m.key = .spot 1 9 600 162 ∧ m.pickedUp = true ∧
        ∃ n ∈ (a.resume (.ofKeys order)).locations, n.key = m.key ∧ n.pickedUp = true := by
  intro a order
  have marked : ⟨.spot 1 9 600 162, "", "", .free, none, true⟩ ∈
      ((a.resume (.ofKeys [])).pickUpAll order).locations := by decide +kernel
  obtain ⟨n, member, same, spelled⟩ :=
    saved_session_marks ⟨⟨0⟩, ∅⟩ {} idolAndChest order _ marked rfl
  refine ⟨_, marked, rfl, rfl, n, member, same, spelled.mpr fun room => ?_⟩
  rw [same] at room
  cases room

/-- The room, played by a spot in it, is not: a save of the spot leaves the room unmarked. -/
theorem savedSpot_misses_room :
    let a := (empty ⟨⟨0⟩, ∅⟩ {}).afterCalls idolAndChest
    let order := [Key.spot 5 5 300 140]
    ((a.resume (.ofKeys [])).pickUpAll order).locations.map (fun l => (l.key, l.pickedUp)) =
        [(.ofRoom 5 5, true), (.spot 1 9 600 162, false)] ∧
      (a.resume (.ofKeys order)).locations.map (fun l => (l.key, l.pickedUp)) =
        [(.ofRoom 5 5, false), (.spot 1 9 600 162, false)] := by
  decide +kernel

end Atlas

end ItemLogic
