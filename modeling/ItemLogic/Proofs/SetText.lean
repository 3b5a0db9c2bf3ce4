import ItemLogic.Capability.Lemmas
import ItemLogic.Capability.Spelling
import ItemLogic.CommandLine.Arguments
import ItemLogic.Text.Lemmas

/-!
# The text of a set reads back

A text is read word by word as the set of what its words spell, and the first word that
spells nothing is reported. A set is written as the abbreviations of its members. An
abbreviation spells its own capability and no other, and it holds neither a separator nor a
blank, so the words of the text are the abbreviations and reading them collects the members.

No name begins with a dash. A text that reads as a set can therefore stand behind an
option of a command: it is not taken for an option itself.
-/

namespace ItemLogic

namespace Capability

/-- No abbreviation is empty. -/
theorem abbreviation_ne_nil (c : Capability) : c.abbreviation.toList ≠ [] := by
  have listed : all.all (fun c => c.abbreviation.toList != []) = true := by decide +kernel
  exact bne_iff_ne.mp (List.all_eq_true.mp listed c (mem_all c))

/-- An abbreviation holds neither a separator nor a blank. -/
theorem solid_of_mem_abbreviation {c : Capability} {letter : Char}
    (member : letter ∈ c.abbreviation.toList) :
    CapSet.isSeparator letter = false ∧ Text.isBlank letter = false := by
  have listed : all.all (fun c => c.abbreviation.toList.all fun letter =>
      !CapSet.isSeparator letter && !Text.isBlank letter) = true := by decide +kernel
  have solid := List.all_eq_true.mp (List.all_eq_true.mp listed c (mem_all c)) letter member
  simpa using solid

/-- No name and no abbreviation begins with a dash. -/
theorem named?_dash (letters : List Char) : named? ('-' :: letters) = none := by
  have listed : ∀ c ∈ all, ∀ spelling ∈ c.spellings, spelling.head? ≠ some '-' := by
    decide +kernel
  exact named?_eq_none_iff.mpr fun c spells => listed c (mem_all c) _ spells rfl

end Capability

namespace CapSet

open Capability (named?)

/-! ### What a text is read as -/

/-- Reading stops at the first word that spells nothing, and otherwise collects what the
    words spell. -/
theorem foldlM_addToken (words : List (List Char)) (s : CapSet) :
    words.foldlM addToken s =
      match words.find? fun word => named? word = none with
      | some word => .error (.unknownCapability (String.ofList word))
      | none => .ok ((words.filterMap named?).foldl (fun s c => s ∪ {c}) s) := by
  induction words generalizing s with
  | nil => rfl
  | cons word words ih =>
    rw [List.foldlM_cons, addToken]
    cases spelled : named? word with
    | none => simp [spelled, bind, Except.bind]
    | some c => simp [spelled, ih, bind, Except.bind]

/-- The first word that spells nothing stands behind words that spell something. -/
theorem find?_unspelled_eq_some_iff {words : List (List Char)} {word : List Char} :
    (words.find? fun word => named? word = none) = some word ↔
      (∀ c : Capability, ¬ c.IsSpelledBy word) ∧ ∃ known rest, words = known ++ word :: rest ∧
        ∀ earlier ∈ known, ∃ c : Capability, c.IsSpelledBy earlier := by
  have spelled {word : List Char} :
      (!decide (named? word = none)) = true ↔ ∃ c : Capability, c.IsSpelledBy word := by
    rw [Bool.not_eq_true', decide_eq_false_iff_not, Capability.named?_eq_none_iff,
      Classical.not_forall_not]
  simp only [List.find?_eq_some_iff_append, decide_eq_true_iff, Capability.named?_eq_none_iff,
    spelled]

/-- A text is read when each of its words spells something, and then as what they spell. -/
theorem parse_eq_ok_iff {text : String} {s : CapSet} :
    parse text = .ok s ↔
      (∀ word ∈ tokens text.toList, ∃ c : Capability, c.IsSpelledBy word) ∧
        ∀ c : Capability, c ∈ s ↔ ∃ word ∈ tokens text.toList, c.IsSpelledBy word := by
  rw [parse, foldlM_addToken]
  cases unspelled : (tokens text.toList).find? fun word => named? word = none with
  | some word =>
    refine ⟨fun read => absurd read (by simp), fun read => ?_⟩
    obtain ⟨c, spells⟩ := read.1 word (List.mem_of_find?_eq_some unspelled)
    exact absurd spells ((find?_unspelled_eq_some_iff.mp unspelled).1 c)
  | none =>
    have known : ∀ word ∈ tokens text.toList, ∃ c : Capability, c.IsSpelledBy word := by
      intro word member
      have named := List.find?_eq_none.mp unspelled word member
      rw [decide_eq_true_iff, Capability.named?_eq_none_iff] at named
      exact Classical.not_forall_not.mp named
    simp only [Except.ok.injEq, ext_iff, mem_foldl_add, List.mem_filterMap,
      Capability.named?_eq_some_iff, not_mem_empty, false_or]
    exact ⟨fun same => ⟨known, fun c => (same c).symm⟩, fun read c => (read.2 c).symm⟩

/-- The word that is reported is the first one that spells nothing, as it stands in the text. -/
theorem parse_eq_error_iff {text : String} {fault : Fault} :
    parse text = .error fault ↔
      ∃ word, (∀ c : Capability, ¬ c.IsSpelledBy word) ∧
        fault = .unknownCapability (String.ofList word) ∧
        ∃ known rest, tokens text.toList = known ++ word :: rest ∧
          ∀ earlier ∈ known, ∃ c : Capability, c.IsSpelledBy earlier := by
  rw [parse, foldlM_addToken]
  cases unspelled : (tokens text.toList).find? fun word => named? word = none with
  | some word =>
    obtain ⟨spellsNothing, split⟩ := find?_unspelled_eq_some_iff.mp unspelled
    constructor
    · intro reported
      exact ⟨word, spellsNothing, (Except.error.inj reported).symm, split⟩
    · rintro ⟨other, nothing, rfl, split⟩
      have same := find?_unspelled_eq_some_iff.mpr ⟨nothing, split⟩
      rw [Option.some.inj (unspelled.symm.trans same)]
  | none =>
    refine ⟨fun reported => absurd reported (by simp), ?_⟩
    rintro ⟨word, spellsNothing, _, split⟩
    have found := find?_unspelled_eq_some_iff.mpr ⟨spellsNothing, split⟩
    cases unspelled.symm.trans found

/-! ### Reading what was written -/

/-- The text of a set consists of the abbreviations of its members, with bars between. -/
theorem toList_text (s : CapSet) :
    s.text.toList = ['|'].intercalate (s.members.map fun c => c.abbreviation.toList) := by
  simp [text, String.toList_intercalate, Function.comp_def]

/-- A bar is the only separator in the text of a set, so the pieces of the text are the
    abbreviations of the members. -/
theorem split_text {s : CapSet} (filled : s.members ≠ []) :
    Text.split isSeparator s.text.toList = s.members.map fun c => c.abbreviation.toList := by
  have solid {c : Capability} : '|' ∉ c.abbreviation.toList := fun bar => by
    cases (Capability.solid_of_mem_abbreviation bar).1
  have bars : ∀ letter ∈ s.text.toList, isSeparator letter = (letter == '|') := by
    intro letter member
    rw [toList_text] at member
    rcases Text.mem_of_mem_intercalate member with bar | ⟨piece, listed, inside⟩
    · rw [List.mem_singleton.mp bar]
      rfl
    · obtain ⟨c, _, rfl⟩ := List.mem_map.mp listed
      rw [(Capability.solid_of_mem_abbreviation inside).1]
      exact (beq_false_of_ne fun bar => solid (bar ▸ inside)).symm
  rw [Text.split_congr bars, Text.split_eq_splitOnP, ← List.splitOn_eq_splitOnP, toList_text,
    List.splitOn_intercalate]
  · intro piece listed
    obtain ⟨c, _, rfl⟩ := List.mem_map.mp listed
    exact solid
  · exact fun none => filled (List.map_eq_nil_iff.mp none)

/-- The names in the text of a set are the abbreviations of its members. -/
theorem tokens_text (s : CapSet) :
    tokens s.text.toList = s.members.map fun c => c.abbreviation.toList := by
  by_cases filled : s.members = []
  · rw [toList_text, filled]
    rfl
  · have trimmed : (s.members.map fun c => c.abbreviation.toList).map Text.trim =
        s.members.map fun c => c.abbreviation.toList := by
      rw [List.map_map]
      refine List.map_congr_left fun d _ => Text.trim_of_no_blank fun letter member => ?_
      exact (Capability.solid_of_mem_abbreviation member).2
    rw [tokens, split_text filled, trimmed, List.filter_eq_self]
    intro token listed
    obtain ⟨d, _, rfl⟩ := List.mem_map.mp listed
    exact decide_eq_true d.abbreviation_ne_nil

/-- A set is read back from the text that is written for it. -/
theorem parse_text (s : CapSet) : parse s.text = .ok s := by
  have spelled {c d : Capability} : c.IsSpelledBy d.abbreviation.toList ↔ c = d := by
    rw [← Capability.named?_eq_some_iff, Capability.named?_abbreviation, Option.some.injEq, eq_comm]
  refine parse_eq_ok_iff.mpr ?_
  rw [tokens_text]
  simp [spelled]

/-! ### Sets behind an option -/

/-- The first name in a text that begins with a dash begins with it as well. -/
theorem tokens_dash (letters : List Char) :
    ∃ token rest, tokens ('-' :: letters) = ('-' :: token) :: rest := by
  obtain ⟨piece, pieces, shaped⟩ : ∃ piece pieces,
      Text.split isSeparator ('-' :: letters) = ('-' :: piece) :: pieces := by
    rw [Text.split, if_neg (by decide)]
    split
    · exact ⟨[], [], rfl⟩
    · exact ⟨_, _, rfl⟩
  have kept : Text.trim ('-' :: piece) = '-' :: Text.trimEnd piece :=
    Text.trim_cons_of_not_blank (by decide) piece
  rw [tokens, shaped, List.map_cons, kept]
  exact ⟨Text.trimEnd piece, _, rfl⟩

/-- What reads as a set is not taken for an option. -/
theorem looksLikeOption_of_parse {text : String} {s : CapSet} (reads : parse text = .ok s) :
    CommandLine.Arguments.looksLikeOption text = false := by
  rw [CommandLine.Arguments.looksLikeOption]
  split
  · rename_i _ letter letters dashed
    obtain ⟨token, rest, first⟩ := tokens_dash (letter :: letters)
    rw [parse, dashed, first, List.foldlM_cons, addToken, Capability.named?_dash] at reads
    cases reads
  · rfl

end CapSet

end ItemLogic
