import ItemLogic.History
import Mathlib.Data.List.Nodup

/-!
# Atlases stay coherent

An atlas keeps three things in step: the list of locations, the index from keys to
positions, and the chains that copies of an item share. Whatever history led to it, the
index gives each key its one position, every copy that lies somewhere has a chain, and
every chain stands at its first stage. Adding appends to the list and the index at once,
and every other change keeps the keys in their places.
-/

namespace ItemLogic.Atlas

/-- The keys of the locations, in order. -/
def keys (a : Atlas) : List Key := a.locations.map (·.key)

/-- The index is exact and every copy has a chain at its first stage. -/
structure Coherent (a : Atlas) : Prop where
  index_exact : ∀ key i, a.index.find? key = some i ↔ a.keys[i]? = some key
  registered : ∀ l ∈ a.locations, ∀ id chain,
    l.item = some (.progressive id chain) → (a.chain? id).isSome
  restarted : ∀ entry ∈ a.chains, entry.2.cursor = 0

variable {a b : Atlas}

/-- The chain that an item brings for an identity: its own, started over, if it is a copy. -/
def broughtChain? : Option Item → ItemId → Option Chain
  | some (.progressive other chain), id => if other = id then some chain.restarted else none
  | _, _ => none

/-- Registering an item gives its chain to its identity unless the identity has one. -/
theorem lookup_register (chains : List (ItemId × Chain)) (item : Option Item) (id : ItemId) :
    (register chains item).lookup id = (chains.lookup id).or (broughtChain? item id) := by
  unfold register broughtChain?
  split
  · rename_i other chain
    by_cases same : other = id
    · subst same
      cases found : chains.lookup other with
      | some shared => simp [found]
      | none => simp [List.lookup_append, found]
    · have apart : (id == other) = false := beq_false_of_ne (Ne.symm same)
      split <;> simp [List.lookup_append, List.lookup_cons, same, apart]
  · simp

/-- Whatever holds of the chains that are there and of the new one at its first stage
    holds after an item is registered. -/
theorem forall_mem_register {holds : ItemId × Chain → Prop} {chains : List (ItemId × Chain)}
    {item : Option Item} (old : ∀ entry ∈ chains, holds entry)
    (new : ∀ id chain, item = some (.progressive id chain) → holds (id, chain.restarted)) :
    ∀ entry ∈ register chains item, holds entry := by
  intro entry member
  unfold register at member
  split at member
  · rename_i id chain
    split at member
    · exact old entry member
    · rcases List.mem_append.mp member with before | added
      · exact old entry before
      · exact List.mem_singleton.mp added ▸ new id chain rfl
  · exact old entry member

/-- Changes of one location that a view does not tell apart make lists that it does not. -/
theorem map_modify_congr {β : Type} (view : Location → β) {change other : Location → Location}
    (same : ∀ l, view (change l) = view (other l)) (locations : List Location) (i : Nat) :
    (locations.modify i change).map view = (locations.modify i other).map view := by
  apply List.ext_getElem?
  intro j
  rw [List.getElem?_map, List.getElem?_map, List.getElem?_modify, List.getElem?_modify]
  cases locations[j]? with
  | none => rfl
  | some l => by_cases here : i = j <;> simp [here, same]

/-- Changing one location in place keeps what the change does not touch. -/
theorem map_modify_of_kept {β : Type} (view : Location → β) (change : Location → Location)
    (kept : ∀ l, view (change l) = view l) (locations : List Location) (i : Nat) :
    (locations.modify i change).map view = locations.map view := by
  have unchanged : ∀ l, view (change l) = view (id l) := kept
  rw [map_modify_congr view unchanged, List.modify_id]

/-- A location of a list with one place changed is an old one or the changed one. -/
theorem mem_of_mem_modify {change : Location → Location} {locations : List Location} {i : Nat}
    {l : Location} (member : l ∈ locations.modify i change) :
    l ∈ locations ∨ ∃ old, locations[i]? = some old ∧ l = change old := by
  obtain ⟨j, found⟩ := List.mem_iff_getElem?.mp member
  rw [List.getElem?_modify] at found
  obtain ⟨old, present, changed⟩ := Option.map_eq_some_iff.mp found
  by_cases same : i = j
  · rw [if_pos same] at changed
    exact .inr ⟨old, same ▸ present, changed.symm⟩
  · rw [if_neg same] at changed
    exact .inl (changed ▸ List.mem_of_getElem? present)

/-- An atlas without locations is coherent. -/
theorem coherent_empty (unlocks : Unlocks) (options : Options) :
    (empty unlocks options).Coherent where
  index_exact key i := by
    constructor
    · intro found
      cases found
    · intro found
      cases found
  registered l member := absurd member List.not_mem_nil
  restarted entry member := absurd member List.not_mem_nil

/-- No two locations share a key. -/
theorem Coherent.nodup (coherent : a.Coherent) : a.keys.Nodup := by
  rw [List.nodup_iff_getElem?_ne_getElem?]
  intro i j before bounded same
  obtain ⟨key, at_i⟩ : ∃ key, a.keys[i]? = some key :=
    ⟨_, List.getElem?_eq_getElem (Nat.lt_trans before bounded)⟩
  have found_i := (coherent.index_exact key i).mpr at_i
  have found_j := (coherent.index_exact key j).mpr (same ▸ at_i)
  have equal : i = j := Option.some.inj (found_i.symm.trans found_j)
  omega

/-- Every chain of a coherent atlas that a look-up gives stands at its first stage. -/
theorem Coherent.cursor_chain? (coherent : a.Coherent) {id : ItemId} {chain : Chain}
    (found : a.chain? id = some chain) : chain.cursor = 0 := by
  obtain ⟨before, after, chains, _⟩ := List.lookup_eq_some_iff.mp found
  have registered : (id, chain) ∈ a.chains := by
    rw [chains]
    exact List.mem_append_right _ List.mem_cons_self
  exact coherent.restarted (id, chain) registered

/-- A key is indexed exactly when some location has it. -/
theorem Coherent.contains_iff (coherent : a.Coherent) {key : Key} :
    a.index.contains key = true ↔ key ∈ a.keys := by
  rw [KeyMap.contains, Option.isSome_iff_exists, List.mem_iff_getElem?]
  exact exists_congr fun i => coherent.index_exact key i

/-- The key of a location resolves to where the location is. -/
theorem Coherent.position?_key (coherent : a.Coherent) {i : Nat} {l : Location}
    (there : a.locations[i]? = some l) : a.position? l.key = some i := by
  have place : a.keys[i]? = some l.key := by simp [keys, there]
  rw [position?, (coherent.index_exact l.key i).mpr place]
  rfl

/-- A key resolves to a location that has it, or to the location of its room if none has it. -/
theorem Coherent.position?_eq_some_iff (coherent : a.Coherent) {i : Nat} {l : Location}
    (there : a.locations[i]? = some l) (key : Key) :
    a.position? key = some i ↔ key = l.key ∨ key ∉ a.keys ∧ key.toRoom = l.key := by
  have indexed (other : Key) : a.index.find? other = some i ↔ other = l.key := by
    rw [coherent.index_exact, keys, List.getElem?_map, there, Option.map_some, Option.some.injEq,
      eq_comm]
  have unknown : a.index.find? key = none ↔ key ∉ a.keys := by
    rw [← coherent.contains_iff, KeyMap.contains, Bool.not_eq_true, Option.isSome_eq_false_iff,
      Option.isNone_iff_eq_none]
  rw [position?, Option.or_eq_some_iff, indexed, unknown, indexed]

/-- The key of a location resolves to that location. -/
theorem Coherent.find?_key (coherent : a.Coherent) {l : Location} (member : l ∈ a.locations) :
    a.find? l.key = some l := by
  obtain ⟨i, there⟩ := List.mem_iff_getElem?.mp member
  rw [find?, coherent.position?_key there]
  exact there

/-- Locations with the same key are the same. -/
theorem Coherent.eq_of_key_eq (coherent : a.Coherent) {l m : Location}
    (first : l ∈ a.locations) (second : m ∈ a.locations) (same : l.key = m.key) : l = m := by
  have resolved := coherent.find?_key first
  rw [same, coherent.find?_key second] at resolved
  exact (Option.some.inj resolved).symm

/-- Where a key is indexed, there is a location with the key. -/
theorem Coherent.exists_location_of_index (coherent : a.Coherent) {key : Key} {i : Nat}
    (indexed : a.index.find? key = some i) : ∃ l, a.locations[i]? = some l ∧ l.key = key := by
  have place := (coherent.index_exact key i).mp indexed
  rw [keys, List.getElem?_map] at place
  exact Option.map_eq_some_iff.mp place

/-- A key that resolves to a position resolves to the location there. -/
theorem Coherent.isSome_find? (coherent : a.Coherent) (key : Key) :
    (a.find? key).isSome = (a.position? key).isSome := by
  cases resolved : a.position? key with
  | none => simp [find?, resolved]
  | some i =>
    have present : ∃ l, a.locations[i]? = some l := by
      rcases Option.or_eq_some_iff.mp resolved with indexed | ⟨_, indexed⟩
      · obtain ⟨l, here, _⟩ := coherent.exists_location_of_index indexed
        exact ⟨l, here⟩
      · obtain ⟨l, here, _⟩ := coherent.exists_location_of_index indexed
        exact ⟨l, here⟩
    obtain ⟨l, here⟩ := present
    simp [find?, resolved, here]

/-- A key resolves when some location has it, or has the key of its room. -/
theorem Coherent.isSome_position?_iff (coherent : a.Coherent) (key : Key) :
    (a.position? key).isSome = true ↔ key ∈ a.keys ∨ key.toRoom ∈ a.keys := by
  rw [position?, Option.isSome_or, Bool.or_eq_true, ← KeyMap.contains, ← KeyMap.contains,
    coherent.contains_iff, coherent.contains_iff]

/-- A new key is indexed at the end of the list, and the other keys stay where they are. -/
theorem Coherent.index_exact_insert (coherent : a.Coherent) {new : Key} (absent : new ∉ a.keys)
    (key : Key) (i : Nat) :
    (a.index.insert new a.locations.length).find? key = some i ↔
      (a.keys ++ [new])[i]? = some key := by
  have length : a.locations.length = a.keys.length := by simp [keys]
  rw [KeyMap.find?_insert, length, List.getElem?_append]
  by_cases same : new = key
  · subst same
    by_cases inside : i < a.keys.length
    · have elsewhere : a.keys[i]? ≠ some new := fun found => absent (List.mem_of_getElem? found)
      simp only [if_pos, inside, elsewhere, Option.some.injEq, iff_false]
      exact Nat.ne_of_gt inside
    · simp [inside, List.getElem?_singleton]
      omega
  · rw [if_neg same, coherent.index_exact]
    by_cases inside : i < a.keys.length
    · simp [inside]
    · simp [inside, List.getElem?_singleton, same]

/-- A copy that lies somewhere keeps its chain when an item is registered. -/
theorem Coherent.registered_register (coherent : a.Coherent) {l : Location}
    (member : l ∈ a.locations) {id : ItemId} {chain : Chain}
    (holds : l.item = some (.progressive id chain)) (item : Option Item) :
    ((register a.chains item).lookup id).isSome := by
  rw [lookup_register, Option.isSome_or, Bool.or_eq_true]
  exact .inl (coherent.registered l member id chain holds)

/-- An added location is appended to the list and indexed at its end. -/
theorem coherent_add {l : Location} (coherent : a.Coherent) (added : a.add l = .ok b) :
    b.Coherent := by
  rw [add] at added
  split at added
  · cases added
  · rename_i new
    rw [coherent.contains_iff] at new
    cases added
    refine ⟨fun key i => ?_, ?_, ?_⟩
    · have appended : (a.locations ++ [l]).map (·.key) = a.keys ++ [l.key] := by simp [keys]
      rw [keys, appended]
      exact coherent.index_exact_insert new key i
    · intro m member id chain holds
      rcases List.mem_append.mp member with old | new
      · exact coherent.registered_register old holds l.item
      · cases List.mem_singleton.mp new
        rw [chain?, holds]
        simp [lookup_register, broughtChain?]
    · exact forall_mem_register coherent.restarted fun _ _ _ => rfl

/-- Placing changes no key. -/
theorem keys_place {key : Key} {item : Option Item} (placed : a.place key item = .ok b) :
    b.keys = a.keys := by
  rw [place] at placed
  split at placed
  · cases placed
    refine map_modify_of_kept (·.key) _ ?_ _ _
    intro l
    rfl
  · cases placed

/-- Picking up changes no key. -/
theorem keys_pickUp {key : Key} (picked : a.pickUp? key = some b) : b.keys = a.keys := by
  obtain ⟨i, _, rfl⟩ := Option.map_eq_some_iff.mp picked
  refine map_modify_of_kept (·.key) _ ?_ _ _
  intro l
  rfl

/-- Placing keeps the keys and registers what is placed. -/
theorem coherent_place {key : Key} {item : Option Item} (coherent : a.Coherent)
    (placed : a.place key item = .ok b) : b.Coherent := by
  have keys := keys_place placed
  rw [place] at placed
  split at placed
  · cases placed
    refine ⟨fun other j => ?_, ?_, ?_⟩
    · rw [keys]
      exact coherent.index_exact other j
    · intro m member id chain holds
      rcases mem_of_mem_modify member with old | ⟨old, _, rfl⟩
      · exact coherent.registered_register old holds item
      · rw [chain?, show item = some (.progressive id chain) from holds]
        simp [lookup_register, broughtChain?]
    · exact forall_mem_register coherent.restarted fun _ _ _ => rfl
  · cases placed

/-- Picking up keeps an atlas coherent, since it changes neither keys nor chains. -/
theorem coherent_pickUp {key : Key} (coherent : a.Coherent) (picked : a.pickUp? key = some b) :
    b.Coherent := by
  have keys := keys_pickUp picked
  obtain ⟨i, _, rfl⟩ := Option.map_eq_some_iff.mp picked
  refine ⟨fun other j => ?_, ?_, coherent.restarted⟩
  · rw [keys]
    exact coherent.index_exact other j
  · intro m member id chain holds
    rcases mem_of_mem_modify member with old | ⟨old, found, rfl⟩
    · exact coherent.registered m old id chain holds
    · exact coherent.registered old (List.mem_of_getElem? found) id chain holds

/-- A chain at its first stage starts over as itself. -/
theorem restarted_eq_self {chain : Chain} (first : chain.cursor = 0) : chain.restarted = chain := by
  cases chain
  cases first
  rfl

/-- Starting a session moves no chain, since every chain of a coherent atlas stands at its
    first stage already. -/
theorem Coherent.chains_resume (coherent : a.Coherent) (save : Save) :
    (a.resume save).chains = a.chains := by
  have same : ∀ entry ∈ a.chains, (entry.1, entry.2.restarted) = entry := fun entry member =>
    Prod.ext rfl (restarted_eq_self (coherent.restarted entry member))
  exact (List.map_congr_left same).trans (List.map_id _)

/-- A start from a save keeps an atlas coherent, since it sends every chain to its first stage. -/
theorem coherent_resume (coherent : a.Coherent) (save : Save) : (a.resume save).Coherent := by
  have chains := coherent.chains_resume save
  refine ⟨fun key i => ?_, ?_, ?_⟩
  · have keys : (a.resume save).keys = a.keys := by simp [keys, resume, Function.comp_def]
    rw [keys]
    exact coherent.index_exact key i
  · intro m member id chain holds
    obtain ⟨old, present, rfl⟩ := List.mem_map.mp member
    rw [chain?, chains]
    exact coherent.registered old present id chain holds
  · rw [chains]
    exact coherent.restarted

/-- Every change keeps an atlas coherent, refused ones included. -/
theorem coherent_after (coherent : a.Coherent) (change : Change) : (a.after change).Coherent := by
  cases change with
  | add l =>
    cases outcome : a.add l with
    | ok b => simpa [after, outcome, Except.toOption] using coherent_add coherent outcome
    | error fault => simpa [after, outcome, Except.toOption] using coherent
  | place key item =>
    cases outcome : a.place key item with
    | ok b => simpa [after, outcome, Except.toOption] using coherent_place coherent outcome
    | error fault => simpa [after, outcome, Except.toOption] using coherent
  | pickUp key =>
    cases outcome : a.pickUp? key with
    | some b => simpa [after, outcome] using coherent_pickUp coherent outcome
    | none => simpa [after, outcome] using coherent
  | resume save => exact coherent_resume coherent save
  | setGoal goal => exact ⟨coherent.index_exact, coherent.registered, coherent.restarted⟩

/-- Whatever history led to an atlas, it is coherent. -/
theorem coherent_ofHistory (unlocks : Unlocks) (options : Options) (history : List Change) :
    (ofHistory unlocks options history).Coherent :=
  replay_induction (coherent_empty unlocks options) fun _ change _ coherent =>
    coherent_after coherent change

end ItemLogic.Atlas
