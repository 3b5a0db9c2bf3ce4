import ItemLogic.Capability.Text
import Mathlib.Data.List.Pairwise

/-!
# How capabilities are spelled

A word spells a capability when it is its name or its abbreviation in letters of any case.
Spelled in small letters, no name or abbreviation of one capability is a name or an
abbreviation of another. Looking a word up therefore finds just the capability that the
word spells, although the look-up takes the first row that fits.
-/

namespace ItemLogic.Capability

/-- The name and the abbreviation of a capability, in small letters. -/
def spellings (c : Capability) : List (List Char) :=
  [c.name.toList.map Char.toLower, c.abbreviation.toList.map Char.toLower]

/-- Whether a word is the name or the abbreviation of a capability, in letters of any case. -/
def IsSpelledBy (c : Capability) (word : List Char) : Prop := word.map Char.toLower ∈ c.spellings

instance (c : Capability) (word : List Char) : Decidable (c.IsSpelledBy word) :=
  inferInstanceAs (Decidable (_ ∈ _))

/-- Whether a word spells a capability does not depend on the case of its letters. -/
theorem isSpelledBy_congr {c : Capability} {word other : List Char}
    (letters : word.map Char.toLower = other.map Char.toLower) :
    c.IsSpelledBy word ↔ c.IsSpelledBy other := by
  rw [IsSpelledBy, letters, IsSpelledBy]

/-- No word spells two capabilities. -/
theorem eq_of_isSpelledBy {c d : Capability} {word : List Char} (first : c.IsSpelledBy word)
    (second : d.IsSpelledBy word) : c = d := by
  have listed : all.Pairwise fun c d => ∀ spelling ∈ c.spellings, spelling ∉ d.spellings := by
    decide +kernel
  have : Std.Symm fun c d : Capability => ∀ spelling ∈ c.spellings, spelling ∉ d.spellings :=
    ⟨fun _ _ apart spelling here there => apart spelling there here⟩
  by_contra distinct
  exact listed.forall (mem_all c) (mem_all d) distinct _ first second

/-- A word names the first capability in the table that it spells. -/
theorem named?_eq_find? (word : List Char) :
    named? word = all.find? fun c => c.IsSpelledBy word := by
  have same (c : Capability) :
      (Text.sameLetters c.name.toList word || Text.sameLetters c.abbreviation.toList word) =
        decide (c.IsSpelledBy word) := by
    rw [Bool.eq_iff_iff, Bool.or_eq_true_iff, decide_eq_true_iff]
    simp [Text.sameLetters, IsSpelledBy, spellings, @eq_comm _ (word.map Char.toLower)]
  simp only [named?, same]

/-- Looking a word up finds just the capability that it spells. -/
theorem named?_eq_some_iff {c : Capability} {word : List Char} :
    named? word = some c ↔ c.IsSpelledBy word := by
  rw [named?_eq_find?]
  constructor
  · exact fun found => of_decide_eq_true (List.find?_some found :)
  · intro spells
    cases found : all.find? fun c : Capability => decide (c.IsSpelledBy word) with
    | none => exact absurd (decide_eq_true spells) (List.find?_eq_none.mp found c (mem_all c))
    | some d => rw [eq_of_isSpelledBy (of_decide_eq_true (List.find?_some found :)) spells]

/-- A word names nothing exactly when it spells no capability. -/
theorem named?_eq_none_iff {word : List Char} :
    named? word = none ↔ ∀ c : Capability, ¬ c.IsSpelledBy word := by
  rw [Option.eq_none_iff_forall_ne_some]
  exact forall_congr' fun c => not_congr named?_eq_some_iff

/-- The first capability that an abbreviation names is the one it abbreviates. -/
theorem named?_abbreviation (c : Capability) : named? c.abbreviation.toList = some c :=
  named?_eq_some_iff.mpr (List.mem_cons_of_mem _ List.mem_cons_self)

end ItemLogic.Capability
