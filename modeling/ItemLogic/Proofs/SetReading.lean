import ItemLogic.Proofs.SetText

/-!
# Texts of sets compose

What a text says of a set depends on nothing but the words that stand in it. Around a
separator each side has words of its own, so it is read on its own: the fault of the left
side is reported before that of the right side, and without a fault what both sides spell is
united. The order of the words, their number, the case of their letters, empty pieces and
blanks never tell two texts apart that are read.
-/

namespace ItemLogic

namespace CapSet

/-! ### Words -/

/-- The words of two texts with a separator between are the words of the one and the other. -/
theorem tokens_append {separator : Char} (separates : isSeparator separator = true)
    (s t : List Char) : tokens (s ++ separator :: t) = tokens s ++ tokens t := by
  simp only [tokens, Text.split_eq_splitOnP, List.splitOnP_append_cons s t separates,
    List.map_append, List.filter_append]

/-- No blank separates words. -/
theorem isSeparator_of_isBlank (c : Char) (blank : Text.isBlank c = true) :
    isSeparator c = false := by
  refine eq_false_of_ne_true fun separates => ?_
  simp only [isSeparator, Bool.or_eq_true, beq_iff_eq] at separates
  rcases separates with (rfl | rfl) | rfl <;> cases blank

/-- Blanks on either side of a text make no difference to its words. -/
theorem tokens_of_blank_around {before after : List Char} (blankBefore : Text.Blank before)
    (cs : List Char) (blankAfter : Text.Blank after) :
    tokens (before ++ (cs ++ after)) = tokens cs := by
  rw [tokens, tokens, Text.map_trim_split_append_left isSeparator_of_isBlank blankBefore,
    Text.map_trim_split_append_right isSeparator_of_isBlank cs blankAfter]

/-- The words of a text are the runs of characters that begin and end with no blank and that
    stand between separators with nothing but blanks around them. -/
theorem mem_tokens_iff {cs word : List Char} :
    word ∈ tokens cs ↔ word ≠ [] ∧ Text.IsTrimmed word ∧
      ∃ before after, Text.Blank before ∧ Text.Blank after ∧
        before ++ (word ++ after) ∈ cs.splitOnP isSeparator := by
  rw [tokens, Text.split_eq_splitOnP, List.mem_filter, decide_eq_true_iff, and_comm, List.mem_map]
  refine and_congr_right fun _ => ?_
  constructor
  · rintro ⟨piece, member, left⟩
    obtain ⟨trimmed, before, after, blankBefore, blankAfter, rfl⟩ := Text.trim_eq_iff.mp left
    exact ⟨trimmed, before, after, blankBefore, blankAfter, member⟩
  · rintro ⟨trimmed, before, after, blankBefore, blankAfter, member⟩
    exact ⟨_, member, Text.trim_eq_iff.mpr ⟨trimmed, before, after, blankBefore, blankAfter, rfl⟩⟩

/-- The pieces of a text, without the blanks around them and in small letters. -/
def pieces (text : String) : List (List Char) :=
  (Text.split isSeparator text.toList).map fun piece => (Text.trim piece).map Char.toLower

/-- Whether two texts have the same pieces, empty ones apart. The order of the pieces, their
    number, the case of their letters and the blanks around them are left out of account. -/
def SameWords (s t : String) : Prop :=
  ∀ word, word ≠ [] → (word ∈ pieces s ↔ word ∈ pieces t)

/-- Having the same words goes both ways. -/
theorem SameWords.symm {s t : String} (same : SameWords s t) : SameWords t s :=
  fun word filled => (same word filled).symm

/-- The pieces of a text, empty ones apart, are its words in small letters. -/
theorem mem_pieces_iff {text : String} {letters : List Char} (filled : letters ≠ []) :
    letters ∈ pieces text ↔ ∃ word ∈ tokens text.toList, word.map Char.toLower = letters := by
  simp only [pieces, tokens, List.mem_map, List.mem_filter, decide_eq_true_iff]
  constructor
  · rintro ⟨piece, member, rfl⟩
    exact ⟨Text.trim piece, ⟨⟨piece, member, rfl⟩, fun empty => filled (by simp [empty])⟩, rfl⟩
  · rintro ⟨_, ⟨⟨piece, member, rfl⟩, _⟩, same⟩
    exact ⟨piece, member, same⟩

/-- A word of one text stands in the other, up to the case of its letters. -/
theorem SameWords.exists_mem {s t : String} (same : SameWords s t) {word : List Char}
    (member : word ∈ tokens s.toList) :
    ∃ other ∈ tokens t.toList, other.map Char.toLower = word.map Char.toLower := by
  have filled : word.map Char.toLower ≠ [] :=
    fun empty => of_decide_eq_true (List.mem_filter.mp member).2 (List.map_eq_nil_iff.mp empty)
  exact (mem_pieces_iff filled).mp
    ((same _ filled).mp ((mem_pieces_iff filled).mpr ⟨word, member, rfl⟩))

/-- What the words of a text spell, the same words spell in another. -/
theorem SameWords.exists_isSpelledBy {s t : String} (same : SameWords s t) {c : Capability}
    (spelled : ∃ word ∈ tokens s.toList, c.IsSpelledBy word) :
    ∃ word ∈ tokens t.toList, c.IsSpelledBy word := by
  obtain ⟨word, member, spells⟩ := spelled
  obtain ⟨other, listed, letters⟩ := same.exists_mem member
  exact ⟨other, listed, (Capability.isSpelledBy_congr letters).mpr spells⟩

/-- A text with the same words as one that is read is read as the same set. -/
theorem SameWords.parse_eq_ok {s t : String} (same : SameWords s t) {set : CapSet}
    (reads : parse s = .ok set) : parse t = .ok set := by
  obtain ⟨known, members⟩ := parse_eq_ok_iff.mp reads
  refine parse_eq_ok_iff.mpr ⟨fun word member => ?_, fun c => (members c).trans ?_⟩
  · obtain ⟨other, listed, letters⟩ := same.symm.exists_mem member
    obtain ⟨c, spells⟩ := known other listed
    exact ⟨c, (Capability.isSpelledBy_congr letters).mp spells⟩
  · exact ⟨same.exists_isSpelledBy, same.symm.exists_isSpelledBy⟩

/-- Around a separator each side is read on its own; a fault of the left side comes first. -/
theorem parse_append {separator : Char} (separates : isSeparator separator = true) (s t : String) :
    parse (s ++ String.singleton separator ++ t) =
      (parse s).bind fun first => (parse t).map fun second => first ∪ second := by
  have sides : tokens (s ++ String.singleton separator ++ t).toList =
      tokens s.toList ++ tokens t.toList := by
    rw [← tokens_append separates]
    simp
  cases left : parse s with
  | error fault =>
    obtain ⟨word, nothing, reported, known, rest, split, spelled⟩ := parse_eq_error_iff.mp left
    refine parse_eq_error_iff.mpr
      ⟨word, nothing, reported, known, rest ++ tokens t.toList, ?_, spelled⟩
    rw [sides, split, List.append_assoc, List.cons_append]
  | ok first =>
    obtain ⟨spelledLeft, membersLeft⟩ := parse_eq_ok_iff.mp left
    cases right : parse t with
    | error fault =>
      obtain ⟨word, nothing, reported, known, rest, split, spelled⟩ := parse_eq_error_iff.mp right
      refine parse_eq_error_iff.mpr
        ⟨word, nothing, reported, tokens s.toList ++ known, rest, ?_, ?_⟩
      · rw [sides, split, List.append_assoc]
      · exact List.forall_mem_append.mpr ⟨spelledLeft, spelled⟩
    | ok second =>
      obtain ⟨spelledRight, membersRight⟩ := parse_eq_ok_iff.mp right
      refine parse_eq_ok_iff.mpr ⟨?_, fun c => ?_⟩
      · rw [sides]
        exact List.forall_mem_append.mpr ⟨spelledLeft, spelledRight⟩
      · rw [sides, mem_union, membersLeft, membersRight]
        simp only [List.mem_append, or_and_right, exists_or]

/-- The text of a set reads back, and a text is read side by side around every separator: as
    the fault of its left side, else as that of its right side, else as the union of both.
    Hence the order of the words, repeated words, the case of their letters, empty pieces and
    blanks around the words leave what is read as it is, and a text that is not read is
    reported by its first word that spells no capability. -/
theorem texts_of_sets_compose :
    (∀ s : CapSet, parse s.text = .ok s) ∧
      (∀ (s t : String), ∀ separator ∈ ['|', ',', '+'],
        parse (s ++ String.singleton separator ++ t) =
          (parse s).bind fun first => (parse t).map fun second => first ∪ second) ∧
      (∀ s t, SameWords s t → ∀ set, parse s = .ok set → parse t = .ok set) ∧
      ∀ s fault, parse s = .error fault ↔
        ∃ word, (∀ c : Capability, ¬ c.IsSpelledBy word) ∧
          fault = .unknownCapability (String.ofList word) ∧
          ∃ known rest, tokens s.toList = known ++ word :: rest ∧
            ∀ earlier ∈ known, ∃ c : Capability, c.IsSpelledBy earlier := by
  refine ⟨parse_text, fun s t separator listed => ?_, ?_, fun s fault => parse_eq_error_iff⟩
  · have separates : isSeparator separator = true := by
      simpa [isSeparator, or_assoc] using listed
    exact parse_append separates s t
  · exact fun s t same set reads => same.parse_eq_ok reads

example : (parse " dj|, DOUBLEJUMP,gas +").toOption = some {.doubleJump, .gasMask} := by
  decide +kernel

end CapSet

end ItemLogic
