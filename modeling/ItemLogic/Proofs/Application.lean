import ItemLogic.Key.Lemmas
import ItemLogic.Proofs.Calls

/-!
# Placements are applied whole or not at all

A placement is refused exactly when one of its keys names no location, neither by itself nor
by its room, and then for the least such key and with the atlas as it was. Otherwise every
location takes what the greatest of the keys that name it is bound to, and a location that no
key names keeps what it holds. Several keys may name one location, since every spot of a room
names the location of the room, so the order of the keys decides between them.

The entries are written in order of their keys. Writing moves no key, so a key names the same
location whatever was written before it, and the last entry to write to a location is the one
whose key is greatest.
-/

namespace ItemLogic

/-- In an ordered list everything else that a search would accept comes after what it finds. -/
theorem eq_or_after_of_find? {α : Type} {before : α → α → Prop} {accepts : α → Bool}
    {l : List α} (ordered : l.Pairwise before) {first : α} (found : l.find? accepts = some first)
    {other : α} (member : other ∈ l) (accepted : accepts other = true) :
    other = first ∨ before first other := by
  obtain ⟨_, passed, rest, rfl, refused⟩ := List.find?_eq_some_iff_append.mp found
  rcases List.mem_append.mp member with early | late
  · exact absurd accepted (by simpa using refused other early)
  · rcases List.mem_cons.mp late with same | behind
    · exact .inl same
    · have later := (List.pairwise_append.mp ordered).2.1
      exact .inr ((List.pairwise_cons.mp later).1 other behind)

namespace Atlas

variable {a : Atlas}

/-- A key names the location at the position that it resolves to. -/
theorem Coherent.search_eq_some_iff (coherent : a.Coherent) {i : Nat} {l : Location}
    (there : a.locations[i]? = some l) (key : Key) :
    a.search key = some l ↔ a.position? key = some i := by
  rw [← coherent.find?_eq_search, find?]
  constructor
  · intro named
    obtain ⟨j, resolved, here⟩ := Option.bind_eq_some_iff.mp named
    -- No other position holds this location, since no other position has its key.
    have same : j = i :=
      Option.some.inj ((coherent.position?_key here).symm.trans (coherent.position?_key there))
    exact same ▸ resolved
  · intro resolved
    rw [resolved]
    exact there

end Atlas

namespace Placement

variable {a : Atlas} {p : Placement}

/-- The key is the least of those that name no location. -/
def IsFirstUnnamed (p : Placement) (a : Atlas) (key : Key) : Prop :=
  key ∈ p.entries.keys ∧ a.search key = none ∧
    ∀ other ∈ p.entries.keys, a.search other = none → ¬ other < key

/-- The key is the greatest of those that name a location. -/
def IsLastFor (p : Placement) (a : Atlas) (l : Location) (key : Key) : Prop :=
  key ∈ p.entries.keys ∧ a.search key = some l ∧
    ∀ other ∈ p.entries.keys, a.search other = some l → ¬ key < other

/-- A placement is refused for the least of its keys that name no location. -/
theorem isFirstUnnamed_of_unresolved (coherent : a.Coherent) {key : Key}
    (found : p.unresolved? a = some key) : p.IsFirstUnnamed a key := by
  rw [unresolved?] at found
  have unnamed : a.search key = none := by
    rw [← coherent.find?_eq_search]
    simpa using List.find?_some found
  refine ⟨List.mem_of_find?_eq_some found, unnamed, fun other listed missing before => ?_⟩
  have ordered : p.entries.keys.Pairwise (· < ·) := List.pairwise_map.mpr p.entries.ordered
  have accepted : (a.find? other).isNone = true := by
    rw [coherent.find?_eq_search, missing]
    rfl
  rcases eq_or_after_of_find? ordered found listed accepted with rfl | after
  · exact Key.lt_irrefl other before
  · exact Key.lt_irrefl other (Key.lt_trans before after)

/-- A placement is refused exactly when one of its keys names no location. -/
theorem unresolved?_isSome_iff (coherent : a.Coherent) :
    (p.unresolved? a).isSome = true ↔ ∃ key ∈ p.entries.keys, a.search key = none := by
  rw [unresolved?, List.find?_isSome]
  refine exists_congr fun key => and_congr_right fun _ => ?_
  rw [coherent.find?_eq_search, Option.isNone_iff_eq_none]

/-- What entries in order of their keys write to a position is the value of the greatest key
    that resolves to it. -/
theorem exists_last_of_writtenTo {entries : List (Key × Option ItemId)}
    (ordered : entries.Pairwise fun first second => first.1 < second.1) {i : Nat}
    {value : Option ItemId} (written : writtenTo a entries i = some value) :
    ∃ key, (key, value) ∈ entries ∧ a.position? key = some i ∧
      ∀ other ∈ entries, a.position? other.1 = some i → ¬ key < other.1 := by
  obtain ⟨last, found, rfl⟩ := Option.map_eq_some_iff.mp written
  have resolved : a.position? last.1 = some i := by simpa using List.find?_some found
  refine ⟨last.1, List.mem_reverse.mp (List.mem_of_find?_eq_some found), resolved, ?_⟩
  intro other listed also before
  have falling := List.pairwise_reverse.mpr ordered
  rcases eq_or_after_of_find? falling found (List.mem_reverse.mpr listed) (by simpa using also)
    with rfl | after
  · exact Key.lt_irrefl other.1 before
  · exact Key.lt_irrefl other.1 (Key.lt_trans after before)

/-- What a placement writes to a location is what the greatest key that names the location
    is bound to. -/
theorem exists_isLastFor_of_writtenTo (coherent : a.Coherent) {i : Nat} {l : Location}
    (there : a.locations[i]? = some l) {value : Option ItemId}
    (written : writtenTo a p.entries.entries i = some value) :
    ∃ key, p.IsLastFor a l key ∧ p.entries.find? key = some value := by
  obtain ⟨key, bound, resolved, greatest⟩ := exists_last_of_writtenTo p.entries.ordered written
  have named := coherent.search_eq_some_iff there
  refine ⟨key, ⟨List.mem_map_of_mem bound, (named key).mpr resolved, ?_⟩,
    (KeyMap.find?_eq_some_iff_mem p.entries.nodup_keys).mpr bound⟩
  intro other listed also
  obtain ⟨entry, member, rfl⟩ := List.mem_map.mp listed
  exact greatest entry member ((named entry.1).mp also)

/-- A placement writes nothing to a location that none of its keys names. -/
theorem search_ne_of_not_written (coherent : a.Coherent) {i : Nat} {l : Location}
    (there : a.locations[i]? = some l) (unwritten : writtenTo a p.entries.entries i = none) :
    ∀ key ∈ p.entries.keys, a.search key ≠ some l := by
  intro key listed named
  obtain ⟨entry, member, rfl⟩ := List.mem_map.mp listed
  have missed := List.find?_eq_none.mp (Option.map_eq_none_iff.mp unwritten) entry
    (List.mem_reverse.mpr member)
  exact missed (by simpa using (coherent.search_eq_some_iff there entry.1).mp named)

/-- What a location holds after the entries of a placement are written. -/
theorem exists_replay_changes (coherent : a.Coherent) (catalog : Catalog) {i : Nat} {l : Location}
    (there : a.locations[i]? = some l) :
    ∃ m, (a.replay (p.changes catalog)).locations[i]? = some m ∧ m.emptied = l.emptied ∧
      ((∃ key value, p.IsLastFor a l key ∧ p.entries.find? key = some value ∧
          m.item = value.map catalog) ∨
        (∀ key ∈ p.entries.keys, a.search key ≠ some l) ∧ m.item = l.item) := by
  have placed := getElem?_replay_place a catalog p.entries.entries i
  rw [there, Option.map_some] at placed
  refine ⟨_, placed, ?_, ?_⟩
  · cases writtenTo a p.entries.entries i <;> rfl
  · cases written : writtenTo a p.entries.entries i with
    | some value =>
      obtain ⟨key, last, bound⟩ := exists_isLastFor_of_writtenTo coherent there written
      exact .inl ⟨key, value, last, bound, rfl⟩
    | none => exact .inr ⟨search_ne_of_not_written coherent there written, rfl⟩

/-- Whatever calls an atlas comes from, and whatever the catalog, a placement that is written in
    place, entry by entry, comes out as the placement applied, and it is applied whole or not at
    all:

    * it is refused exactly when one of its keys names no location, and then for the least
      such key and with the atlas as it was;
    * otherwise nothing changes but items and chains, each location takes what the greatest key
      that names it is bound to, and a location that no key names keeps its item. -/
theorem applied_whole_or_not_at_all (unlocks : Unlocks) (options : Options) (calls : List Call)
    (p : Placement) (catalog : Catalog) :
    let a := (Atlas.empty unlocks options).afterCalls calls
    let outcome := (InPlace.apply p catalog).run a
    outcome = a.settled (p.apply catalog a) ∧
    ((∃ fault b, outcome = .error fault b) ↔ ∃ key ∈ p.entries.keys, a.search key = none) ∧
    (∀ fault b, outcome = .error fault b →
      b = a ∧ ∃ key, p.IsFirstUnnamed a key ∧ fault = .unknownLocation key) ∧
    ((∀ key ∈ p.entries.keys, a.search key ≠ none) →
      ∃ b, outcome = .ok () b ∧ b.emptied = a.emptied ∧
        ∀ (i : Nat) (l : Location), a.locations[i]? = some l →
          ∃ m, b.locations[i]? = some m ∧ m.emptied = l.emptied ∧
            ((∃ key value, p.IsLastFor a l key ∧ p.entries.find? key = some value ∧
                m.item = value.map catalog) ∨
              (∀ key ∈ p.entries.keys, a.search key ≠ some l) ∧ m.item = l.item)) := by
  intro a outcome
  have coherent : a.Coherent := Atlas.coherent_afterCalls unlocks options calls
  have refused := unresolved?_isSome_iff (p := p) coherent
  have settled : outcome = a.settled (p.apply catalog a) := InPlace.run_apply a p catalog
  refine ⟨settled, ?_⟩
  rw [settled]
  cases resolution : p.unresolved? a with
  | some key =>
    have missing : ∃ other ∈ p.entries.keys, a.search other = none :=
      refused.mp (by rw [resolution]; rfl)
    rw [apply_of_unresolved resolution]
    refine ⟨iff_of_true ⟨_, _, rfl⟩ missing, ?_, ?_⟩
    · intro fault b stopped
      cases stopped
      exact ⟨rfl, key, isFirstUnnamed_of_unresolved coherent resolution, rfl⟩
    · intro named
      obtain ⟨other, listed, nowhere⟩ := missing
      exact absurd nowhere (named other listed)
  | none =>
    have named : ¬ ∃ other ∈ p.entries.keys, a.search other = none := by
      rw [← refused, resolution]
      simp
    rw [apply_of_resolved resolution]
    refine ⟨iff_of_false ?_ named, ?_, ?_⟩
    · rintro ⟨fault, b, stopped⟩
      cases stopped
    · intro fault b stopped
      cases stopped
    · intro _
      refine ⟨_, rfl, a.emptied_replay_changes p catalog, fun i l there => ?_⟩
      exact exists_replay_changes coherent catalog there

/-- The room of the golden idol, which is a location as a whole. -/
def idolRoom : List Call := [.change (.add ⟨.ofRoom 5 5, "", "", .free, none, false⟩)]

/-- Two spots of that room with different relics. -/
def twoSpots : Placement :=
  ⟨.ofList [(.spot 5 5 300 140, some (.relic .tablet)), (.spot 5 5 20 90, some (.relic .dash))]⟩

/-- Both spots name the room, and what is bound to the greater one lies there afterwards. -/
theorem twoSpots_applied :
    let a := (Atlas.empty ⟨⟨0⟩, ∅⟩ {}).afterCalls idolRoom
    let catalog := Catalog.standard {} ⟨⟨0⟩, ∅⟩
    ∃ b m, (InPlace.apply twoSpots catalog).run a = .ok () b ∧ b.locations[0]? = some m ∧
      m.item = some (catalog (.relic .tablet)) := by
  intro a catalog
  have listed : twoSpots.entries.keys = [.spot 5 5 20 90, .spot 5 5 300 140] := by decide +kernel
  have room : a.locations[0]? = some ⟨.ofRoom 5 5, "", "", .free, none, false⟩ := by
    decide +kernel
  have named : ∀ key ∈ twoSpots.entries.keys, a.search key = a.locations[0]? := by
    rw [listed]
    decide +kernel
  obtain ⟨_, _, _, applies⟩ := applied_whole_or_not_at_all ⟨⟨0⟩, ∅⟩ {} idolRoom twoSpots catalog
  obtain ⟨b, applied, _, filled⟩ := applies fun key member => by
    rw [named key member, room]
    exact Option.some_ne_none _
  obtain ⟨m, here, _, ⟨key, value, last, bound, item⟩ | ⟨unnamed, _⟩⟩ := filled 0 _ room
  · refine ⟨b, m, applied, here, ?_⟩
    have greatest : key = .spot 5 5 300 140 := by
      have member := last.1
      rw [listed] at member
      rcases List.mem_cons.mp member with rfl | second
      · refine absurd (by decide +kernel) (last.2.2 (.spot 5 5 300 140) ?_ ?_)
        · rw [listed]
          decide
        · rw [named _ (by rw [listed]; decide), room]
      · exact List.mem_singleton.mp second
    rw [greatest, show twoSpots.entries.find? (.spot 5 5 300 140) = some (some (.relic .tablet))
      by decide +kernel] at bound
    rw [item, ← Option.some.inj bound]
    rfl
  · refine absurd ((named (.spot 5 5 20 90) ?_).trans room) (unnamed _ ?_) <;>
      rw [listed] <;> decide

end Placement

end ItemLogic
