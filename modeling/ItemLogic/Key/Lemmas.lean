import ItemLogic.Key.Map
import ItemLogic.Key.Text
import ItemLogic.Text.Lemmas
import Mathlib.Data.List.Nodup

/-!
# Keys and maps of keys read back

The text of a key denotes the key. The entries of a map, bound one after the other, give the
map again, and a list of bindings gives each key the last value that it is bound to.
-/

namespace ItemLogic

namespace Key

/-- A coordinate is read back from its numeral, since every word lies in its own range. -/
theorem coordinate?_ofInteger (n : Int32) : coordinate? (Text.ofInteger n.toInt) = some n := by
  have clean : ∀ c ∈ Text.ofInteger n.toInt, Text.isBlank c = false := by
    intro c member
    rcases Text.sign_or_isDigit_of_mem_ofInteger member with rfl | digit
    · rfl
    · exact Text.isBlank_of_isDigit digit
  rw [coordinate?, Text.trim_of_no_blank clean, Text.integer?_ofInteger]
  simp only [Int32.minValue_le_toInt, Int32.toInt_le, and_self, if_true, Int32.ofInt_toInt]

/-- A key is read back from its text. -/
theorem ofChars?_chars (key : Key) : ofChars? key.chars = some key := by
  have pieces : key.rank.map Text.ofInteger ≠ [] := by
    rw [rank]
    split <;> simp
  have plain : ∀ piece ∈ key.rank.map Text.ofInteger, ∀ c ∈ piece, c = '-' ∨ c.isDigit = true := by
    intro piece member c inside
    obtain ⟨value, _, rfl⟩ := List.mem_map.mp member
    exact Text.sign_or_isDigit_of_mem_ofInteger inside
  have clean : ∀ c ∈ key.chars, Text.isBlank c = false := by
    intro c member
    rcases Text.mem_of_mem_intercalate member with point | ⟨piece, listed, inside⟩
    · rw [List.mem_singleton.mp point]
      rfl
    · rcases plain piece listed c inside with rfl | digit
      · rfl
      · exact Text.isBlank_of_isDigit digit
  have solid : ∀ piece ∈ key.rank.map Text.ofInteger, '.' ∉ piece := by
    intro piece listed inside
    rcases plain piece listed '.' inside with dash | digit
    · cases dash
    · cases digit
  rw [ofChars?, Text.trim_of_no_blank clean, chars, Text.split_eq_splitOnP,
    ← List.splitOn_eq_splitOnP, List.splitOn_intercalate '.' solid pieces]
  obtain ⟨level, room, position⟩ := key
  cases position with
  | none => simp [rank, coordinate?_ofInteger, ofCoordinates?, ofRoom]
  | some at_ => simp [rank, coordinate?_ofInteger, ofCoordinates?, spot]

end Key

namespace KeyMap

variable {α : Type}

/-- A key above all others is bound at the end. -/
theorem insertEntry_of_above {key : Key} (value : α) {entries : List (Key × α)}
    (above : ∀ entry ∈ entries, entry.1 < key) :
    insertEntry key value entries = entries ++ [(key, value)] := by
  induction entries with
  | nil => rfl
  | cons head rest ih =>
    have below : head.1 < key := above head List.mem_cons_self
    have later := ih fun entry member => above entry (List.mem_cons_of_mem head member)
    have after : ¬ key < head.1 := fun before => Key.lt_irrefl key (Key.lt_trans before below)
    have distinct : key ≠ head.1 := by
      rintro rfl
      exact Key.lt_irrefl _ below
    rw [insertEntry, if_neg after, if_neg distinct, later, List.cons_append]

/-- Bindings in rising order, above all that is bound already, join the entries at the end. -/
theorem entries_foldl_insert (m : KeyMap α) {later : List (Key × α)}
    (ordered : (m.entries ++ later).Pairwise fun a b => a.1 < b.1) :
    (later.foldl (fun m entry => m.insert entry.1 entry.2) m).entries = m.entries ++ later := by
  induction later generalizing m with
  | nil => rw [List.foldl_nil, List.append_nil]
  | cons entry rest ih =>
    have above : ∀ other ∈ m.entries, other.1 < entry.1 := fun other member =>
      (List.pairwise_append.mp ordered).2.2 other member entry List.mem_cons_self
    have bound : (m.insert entry.1 entry.2).entries = m.entries ++ [entry] :=
      insertEntry_of_above entry.2 above
    have same : m.entries ++ entry :: rest = (m.insert entry.1 entry.2).entries ++ rest := by
      rw [bound, List.append_assoc, List.singleton_append]
    rw [List.foldl_cons, same]
    exact ih _ (same ▸ ordered)

/-- Maps with the same entries are equal. -/
theorem ext_entries {m n : KeyMap α} (same : m.entries = n.entries) : m = n := by
  cases m
  cases n
  cases same
  rfl

/-- The entries of a map, bound one after the other, give the map. -/
theorem ofList_entries (m : KeyMap α) : ofList m.entries = m := by
  have entries : (ofList m.entries).entries = m.entries := entries_foldl_insert ∅ m.ordered
  exact ext_entries entries

/-- No key is bound twice. -/
theorem nodup_keys (m : KeyMap α) : m.keys.Nodup := by
  refine List.pairwise_map.mpr (m.ordered.imp ?_)
  intro first second before same
  exact Key.lt_irrefl _ (same ▸ before)

/-- Where no key is bound twice, looking a key up gives what it is bound to. -/
theorem find?_eq_some_iff_mem {entries : List (Key × α)} (nodup : (entries.map (·.1)).Nodup)
    {key : Key} {value : α} :
    (entries.find? fun entry => entry.1 = key).map (·.2) = some value ↔
      (key, value) ∈ entries := by
  rw [Option.map_eq_some_iff]
  constructor
  · rintro ⟨entry, found, rfl⟩
    have same : entry.1 = key := by simpa using List.find?_some found
    exact same ▸ List.mem_of_find?_eq_some found
  · intro member
    obtain ⟨entry, found⟩ : ∃ entry, (entries.find? fun entry => entry.1 = key) = some entry :=
      Option.isSome_iff_exists.mp (List.find?_isSome.mpr ⟨_, member, by simp⟩)
    have same : entry.1 = key := by simpa using List.find?_some found
    have one : entry = (key, value) :=
      List.inj_on_of_nodup_map nodup (List.mem_of_find?_eq_some found) member same
    exact ⟨entry, found, congrArg Prod.snd one⟩

/-- Among bindings that are added one after the other the last one of a key counts, and what the
    map had before only where there is none. -/
theorem find?_foldl_insert (m : KeyMap α) (later : List (Key × α)) (key : Key) :
    (later.foldl (fun m entry => m.insert entry.1 entry.2) m).find? key =
      ((later.reverse.find? fun entry => entry.1 = key).map (·.2)).or (m.find? key) := by
  induction later generalizing m with
  | nil => rfl
  | cons entry rest ih =>
    rw [List.foldl_cons, ih, find?_insert, List.reverse_cons, List.find?_append]
    cases rest.reverse.find? fun entry => entry.1 = key with
    | some last => rfl
    | none => by_cases same : entry.1 = key <;> simp [same]

/-- A key is bound to the last value that a list binds it to. -/
theorem find?_ofList (entries : List (Key × α)) (key : Key) :
    (ofList entries).find? key =
      (entries.reverse.find? fun entry => entry.1 = key).map (·.2) := by
  rw [ofList, find?_foldl_insert]
  exact Option.or_none

/-- Where a list binds no key twice, its bindings are the entries. -/
theorem mem_entries_ofList {entries : List (Key × α)} (nodup : (entries.map (·.1)).Nodup)
    {entry : Key × α} : entry ∈ (ofList entries).entries ↔ entry ∈ entries := by
  have reversed : (entries.reverse.map (·.1)).Nodup := by
    rw [List.map_reverse]
    exact List.nodup_reverse.mpr nodup
  obtain ⟨key, value⟩ := entry
  rw [← find?_eq_some_iff_mem (ofList entries).nodup_keys, ← find?, find?_ofList,
    find?_eq_some_iff_mem reversed, List.mem_reverse]

end KeyMap

/-- The set of the keys in a list contains those. -/
theorem KeySet.contains_ofKeys {keys : List Key} {key : Key} :
    (KeySet.ofKeys keys).contains key = true ↔ key ∈ keys := by
  rw [KeySet.ofKeys, KeyMap.contains, KeyMap.find?_ofList, Option.isSome_map, List.find?_isSome]
  simp

end ItemLogic
