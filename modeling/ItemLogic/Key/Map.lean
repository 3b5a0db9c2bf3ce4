import ItemLogic.Key.Basic

/-!
# Maps from keys

A map is the list of its entries in strictly rising order of keys, so equal maps
are equal lists and reading one out gives key order. Inserting replaces the entry
of an equal key, and a lookup after an insertion sees it.
-/

namespace ItemLogic

/-- Entries in strictly rising order of their keys. -/
structure KeyMap (α : Type) where
  entries : List (Key × α)
  ordered : entries.Pairwise fun a b => a.1 < b.1

namespace KeyMap

variable {α : Type}

/-- Puts an entry into an ordered list, in place of one with the same key. -/
def insertEntry (key : Key) (value : α) : List (Key × α) → List (Key × α)
  | [] => [(key, value)]
  | (k, v) :: rest =>
    if key < k then (key, value) :: (k, v) :: rest
    else if key = k then (key, value) :: rest
    else (k, v) :: insertEntry key value rest

/-- An entry after an insertion has the new key or was there before. -/
theorem fst_mem_insertEntry {key : Key} {value : α} {entries : List (Key × α)} {entry : Key × α}
    (member : entry ∈ insertEntry key value entries) : entry.1 = key ∨ entry ∈ entries := by
  induction entries with
  | nil => simp_all [insertEntry]
  | cons head rest ih =>
    obtain ⟨k, v⟩ := head
    rw [insertEntry] at member
    split at member
    · rcases List.mem_cons.mp member with rfl | old
      · exact .inl rfl
      · exact .inr old
    · split at member
      · rcases List.mem_cons.mp member with rfl | old
        · exact .inl rfl
        · exact .inr (List.mem_cons_of_mem _ old)
      · rcases List.mem_cons.mp member with rfl | old
        · exact .inr List.mem_cons_self
        · exact (ih old).imp_right (List.mem_cons_of_mem _)

/-- An insertion keeps the keys in rising order. -/
theorem insertEntry_ordered (key : Key) (value : α) {entries : List (Key × α)}
    (ordered : entries.Pairwise fun a b => a.1 < b.1) :
    (insertEntry key value entries).Pairwise fun a b => a.1 < b.1 := by
  induction entries with
  | nil => simp [insertEntry]
  | cons head rest ih =>
    obtain ⟨k, v⟩ := head
    obtain ⟨first, later⟩ := List.pairwise_cons.mp ordered
    rw [insertEntry]
    split
    · rename_i before
      refine List.pairwise_cons.mpr ⟨fun entry member => ?_, ordered⟩
      rcases List.mem_cons.mp member with rfl | old
      · exact before
      · exact Key.lt_trans before (first entry old)
    · rename_i after
      split
      · rename_i same
        subst same
        exact List.pairwise_cons.mpr ⟨first, later⟩
      · rename_i distinct
        refine List.pairwise_cons.mpr ⟨fun entry member => ?_, ih later⟩
        rcases fst_mem_insertEntry member with same | old
        · exact same ▸ Key.lt_of_not_lt after distinct
        · exact first entry old

/-- The map without entries. -/
instance : EmptyCollection (KeyMap α) := ⟨⟨[], .nil⟩⟩

/-- Binds a key, replacing what it was bound to. -/
def insert (m : KeyMap α) (key : Key) (value : α) : KeyMap α :=
  ⟨insertEntry key value m.entries, insertEntry_ordered key value m.ordered⟩

/-- The value a key is bound to. -/
def find? (m : KeyMap α) (key : Key) : Option α :=
  (m.entries.find? fun entry => entry.1 = key).map (·.2)

/-- Whether a key is bound. -/
def contains (m : KeyMap α) (key : Key) : Bool := (m.find? key).isSome

/-- The bound keys in rising order. -/
def keys (m : KeyMap α) : List Key := m.entries.map (·.1)

/-- The number of bound keys. -/
def size (m : KeyMap α) : Nat := m.entries.length

/-- Binds the keys of a list one after the other, so that the last entry of a key stays. -/
def ofList (entries : List (Key × α)) : KeyMap α :=
  entries.foldl (fun m entry => m.insert entry.1 entry.2) ∅

/-- After an insertion the new key leads to the new value, and every other key to where it led
    before. -/
private theorem find?_insertEntry (key other : Key) (value : α) {entries : List (Key × α)}
    (ordered : entries.Pairwise fun a b => a.1 < b.1) :
    ((insertEntry key value entries).find? fun entry => entry.1 = other).map (·.2) =
      if key = other then some value
      else (entries.find? fun entry => entry.1 = other).map (·.2) := by
  induction entries with
  | nil => by_cases same : key = other <;> simp [insertEntry, same]
  | cons head rest ih =>
    obtain ⟨k, v⟩ := head
    obtain ⟨first, later⟩ := List.pairwise_cons.mp ordered
    rw [insertEntry]
    by_cases before : key < k
    · rw [if_pos before]
      by_cases same : key = other <;> simp [same]
    · rw [if_neg before]
      by_cases equal : key = k
      · subst equal
        by_cases same : key = other <;> simp [same]
      · rw [if_neg equal, List.find?_cons, List.find?_cons]
        by_cases here : k = other
        · simp [here, show key ≠ other from fun same => equal (same.trans here.symm)]
        · simp [here, ih later]

/-- After an insertion the key is bound to the new value, and every other key as before. -/
theorem find?_insert (m : KeyMap α) (key other : Key) (value : α) :
    (m.insert key value).find? other = if key = other then some value else m.find? other :=
  find?_insertEntry key other value m.ordered

end KeyMap

/-- Finite sets of keys. -/
abbrev KeySet := KeyMap Unit

/-- The set of the keys in a list. -/
def KeySet.ofKeys (keys : List Key) : KeySet := KeyMap.ofList (keys.map fun key => (key, ()))

end ItemLogic
