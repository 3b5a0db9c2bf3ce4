import ItemLogic.Proofs.KeyText
import ItemLogic.Stored.Lemmas

/-!
# How the keys of a placement are spelled

A placement is read from an object whose names are texts of keys. Names are told apart by the
keys that they denote and by nothing else: two spellings of one key are one key, which is bound
to what comes last under any spelling. A name that denotes no key is reported, and of several
the first in the order of the text. So neither the layout of the object nor the spelling of its
names makes a difference to the placement that is read.
-/

namespace ItemLogic.Placement

variable {entries : List (String × Option ItemId)} {bindings : List (Key × Option ItemId)}
  {text name : String}

/-- Whether a name is the first among those of some entries that denotes no key. -/
def IsFirstRefused (entries : List (String × Option ItemId)) (name : String) : Prop :=
  ∃ earlier item later, entries = earlier ++ (name, item) :: later ∧
    (∀ entry ∈ earlier, ∃ key, Key.parse entry.1 = .ok key) ∧ ¬ ∃ key, Key.parse name = .ok key

/-! ### Names that are all keys -/

/-- Entries bind keys exactly when all their names are keys. -/
theorem exists_binds_iff :
    (∃ bindings, Binds entries bindings) ↔
      ∀ entry ∈ entries, ∃ key, Key.parse entry.1 = .ok key := by
  simp only [Binds, Key.exists_forall₂_iff]
  refine forall₂_congr fun entry _ => ⟨?_, ?_⟩
  · rintro ⟨binding, named, _⟩
    exact ⟨binding.1, named⟩
  · rintro ⟨key, named⟩
    exact ⟨(key, entry.2), named, rfl⟩

/-- The keys that entries bind are bound in a placement that is read from them. -/
theorem ofJson_of_binds (written : Written entries text) (binds : Binds entries bindings) :
    ofJson text = .ok ⟨.ofList bindings⟩ := by
  rw [ofJson_of_written written, foldlM_bindEntry_of_binds binds]
  rfl

/-- The values that a key is bound to are those under its spellings, in order. -/
theorem map_filter_of_binds (binds : Binds entries bindings) (key : Key) :
    (bindings.filter fun binding => binding.1 = key).map (·.2) =
      (entries.filter fun entry => (Key.parse entry.1).toOption = some key).map (·.2) := by
  -- Entries and what they bind side by side: the two filters take the same of them.
  induction binds with
  | nil => rfl
  | @cons entry binding _ _ first later ih =>
    obtain ⟨named, held⟩ := first
    have spelled : decide ((Key.parse entry.1).toOption = some key) = decide (binding.1 = key) := by
      rw [named]
      simp only [Except.toOption, Option.some.injEq]
    rw [List.filter_cons, List.filter_cons, spelled]
    split
    · rw [List.map_cons, List.map_cons, ih, held]
    · exact ih

/-- A key is bound to what comes last under any of its spellings. -/
theorem find?_of_binds (binds : Binds entries bindings) (key : Key) :
    (KeyMap.ofList bindings).find? key =
      (entries.filter fun entry => (Key.parse entry.1).toOption = some key).getLast?.map (·.2) := by
  rw [KeyMap.find?_ofList, ← List.getLast?_filter, ← List.getLast?_map, map_filter_of_binds binds,
    List.getLast?_map]

/-! ### Names that are no keys -/

/-- Either all names are keys, or one of them is the first that is none. -/
theorem named_or_exists_isFirstRefused (entries : List (String × Option ItemId)) :
    (∀ entry ∈ entries, ∃ key, Key.parse entry.1 = .ok key) ∨
      ∃ name, IsFirstRefused entries name := by
  induction entries with
  | nil => exact .inl fun _ member => absurd member List.not_mem_nil
  | cons entry rest ih =>
    by_cases named : ∃ key, Key.parse entry.1 = .ok key
    · rcases ih with later | ⟨name, earlier, item, later, rfl, known, refused⟩
      · exact .inl (List.forall_mem_cons.mpr ⟨named, later⟩)
      · exact .inr ⟨name, entry :: earlier, item, later, rfl,
          List.forall_mem_cons.mpr ⟨named, known⟩, refused⟩
    · exact .inr ⟨entry.1, [], entry.2, rest, rfl, fun _ member => absurd member List.not_mem_nil,
        named⟩

/-- A name that is refused first is no key by itself, and is refused as it was given. -/
theorem IsFirstRefused.parse_eq (first : IsFirstRefused entries name) :
    Key.parse name = .error (.invalidKey name) := by
  obtain ⟨_, _, _, _, _, refused⟩ := first
  rw [Key.parse, Key.ofChars?_of_refused refused]

/-- The first name that is no key is reported. -/
theorem ofJson_of_isFirstRefused (written : Written entries text)
    (first : IsFirstRefused entries name) : ofJson text = .error (.json (.badKey name)) := by
  obtain ⟨earlier, item, later, rfl, known, refused⟩ := first
  obtain ⟨bindings, binds⟩ := exists_binds_iff.mpr known
  rw [ofJson_of_written written, List.foldlM_append, foldlM_bindEntry_of_binds binds]
  simp only [bind, Except.bind, List.foldlM_cons, bindEntry, Key.ofStored,
    Key.ofChars?_of_refused refused]
  rfl

/-- A text of some entries is read as what its names bind, or it is refused for the first name
    that is no key. -/
theorem ofJson_cases (written : Written entries text) :
    (∃ bindings, Binds entries bindings ∧ ofJson text = .ok ⟨.ofList bindings⟩) ∨
      ∃ name, IsFirstRefused entries name ∧ ofJson text = .error (.json (.badKey name)) := by
  rcases named_or_exists_isFirstRefused entries with named | ⟨name, first⟩
  · obtain ⟨bindings, binds⟩ := exists_binds_iff.mpr named
    exact .inl ⟨bindings, binds, ofJson_of_binds written binds⟩
  · exact .inr ⟨name, first, ofJson_of_isFirstRefused written first⟩

/-- A text of some entries is read as a placement exactly when all their names are keys. Then each
    key is bound to the value of the last entry that spells it, in whatever way, and no other key
    is bound; any text whose entries bind the same keys in the same order is read as the same
    placement, so applying it to an atlas does the same. Otherwise the first name that is no key is
    reported, as what reading it alone reports. -/
theorem placements_read_by_keys (written : Written entries text) :
    ((∃ p, ofJson text = .ok p) ↔ ∀ entry ∈ entries, ∃ key, Key.parse entry.1 = .ok key) ∧
      (∀ p, ofJson text = .ok p → ∀ key, p.entries.find? key =
        (entries.filter fun entry => (Key.parse entry.1).toOption = some key).getLast?.map (·.2)) ∧
      (∀ fault, ofJson text = .error fault ↔ ∃ name, IsFirstRefused entries name ∧
        Key.parse name = .error (.invalidKey name) ∧ fault = .json (.badKey name) ∧
        fault.message = "JSON error: " ++ (Fault.invalidKey name).message) ∧
      ∀ bindings, Binds entries bindings → ∀ others other, Written others other →
        Binds others bindings → (∃ p, ofJson text = .ok p ∧ ofJson other = .ok p) ∧
          ∀ catalog a, (ofJson text).bind (·.apply catalog a) =
            (ofJson other).bind (·.apply catalog a) := by
  refine ⟨⟨?_, ?_⟩, ?_, ?_, ?_⟩
  · rintro ⟨p, read⟩
    rcases ofJson_cases written with ⟨bindings, binds, _⟩ | ⟨name, _, refused⟩
    · exact exists_binds_iff.mp ⟨bindings, binds⟩
    · cases read.symm.trans refused
  · intro named
    obtain ⟨bindings, binds⟩ := exists_binds_iff.mpr named
    exact ⟨_, ofJson_of_binds written binds⟩
  · intro p read key
    rcases ofJson_cases written with ⟨bindings, binds, same⟩ | ⟨name, _, refused⟩
    · cases read.symm.trans same
      exact find?_of_binds binds key
    · cases read.symm.trans refused
  · intro fault
    constructor
    · intro reported
      rcases ofJson_cases written with ⟨bindings, _, read⟩ | ⟨name, first, refused⟩
      · cases reported.symm.trans read
      · cases reported.symm.trans refused
        exact ⟨name, first, first.parse_eq, rfl, rfl⟩
    · rintro ⟨name, first, _, rfl, _⟩
      exact ofJson_of_isFirstRefused written first
  · intro bindings binds others other written' binds'
    have here := ofJson_of_binds written binds
    have there := ofJson_of_binds written' binds'
    exact ⟨⟨_, here, there⟩, fun catalog a => by rw [here, there]⟩

/-- One room under two spellings, and another room between them. -/
def respelledRoom : List (String × Option ItemId) :=
  [("1.09", none), ("11.21", none), (" +1.9 ", some (.relic .doubleJump))]

/-- The room is one key, and it holds what is written last. -/
theorem respelledRoom_bound_once :
    Written respelledRoom
        (Json.prettyObject 0 (respelledRoom.map fun entry => (entry.1, itemJson entry.2))) ∧
      ∃ p, ofJson (Json.prettyObject 0 (respelledRoom.map fun entry => (entry.1, itemJson entry.2))) =
          .ok p ∧
        p.entries.find? (.ofRoom 1 9) = some (some (.relic .doubleJump)) := by
  have written := written_prettyObject respelledRoom
  obtain ⟨succeeds, binds, _⟩ := placements_read_by_keys written
  have named : ∀ entry ∈ respelledRoom, ∃ key, Key.parse entry.1 = .ok key :=
    exists_binds_iff.mp ⟨[(.ofRoom 1 9, none), (.ofRoom 11 21, none),
      (.ofRoom 1 9, some (.relic .doubleJump))],
      .cons ⟨rfl, rfl⟩ (.cons ⟨rfl, rfl⟩ (.cons ⟨rfl, rfl⟩ .nil))⟩
  obtain ⟨p, read⟩ := succeeds.mpr named
  exact ⟨written, p, read, (binds p read _).trans (by decide +kernel)⟩

example : ((ofJson "\x7b\"1.09\" : null, \"\\u0031.9\":\x7b\"Relic\":\"Dash\"\x7d\x7d\n").toOption.map
    (·.entries.entries)) = some [(.ofRoom 1 9, some (.relic .dash))] := by
  decide +kernel

end ItemLogic.Placement
