import ItemLogic.Json.Reader
import ItemLogic.Json.Writer
import ItemLogic.Text.Lemmas
import Mathlib.Tactic.SplitIfs

/-!
# Readers and the texts they take

A reader takes a text for a value when it gives the value whatever blanks stand before the
text and whatever comes after it. Blanks before are what stands between the parts of an object
or an array, and what comes after are the other parts, so what readers take for values can be
put together. The letters and escapes of a string are read one by one, and an array of strings
that is written is read string by string into the state that they lead to.
-/

namespace ItemLogic.Json

/-- Whether a text is all blanks. -/
def Blank (cs : List Char) : Prop := ∀ c ∈ cs, isBlank c = true

/-- Whether a reader takes a text for a value, between blanks and whatever else follows. -/
def Reads {α : Type} (reader : Reader α) (text : List Char) (value : α) : Prop :=
  ∀ blanks, Blank blanks → ∀ rest, reader (blanks ++ (text ++ rest)) = .ok (value, rest)

variable {α β : Type}

/-- No characters at all are blank. -/
theorem blank_nil : Blank [] := fun _ member => absurd member List.not_mem_nil

/-- A single space is blank. -/
theorem blank_space : Blank [' '] := by
  intro c member
  rw [List.mem_singleton.mp member]
  rfl

/-- A line break is blank, with the indentation behind it. -/
theorem blank_lineBreak (depth : Nat) : Blank (lineBreak depth).toList := by
  intro c member
  have among : c = '\n' ∨ c = ' ' := by
    simp only [lineBreak, String.toList_append, String.toList_ofList, List.mem_append] at member
    exact member.imp List.mem_singleton.mp List.eq_of_mem_replicate
  rcases among with rfl | rfl <;> rfl

/-- Blanks are skipped. -/
theorem skipBlanks_append {blanks : List Char} (blank : Blank blanks) (cs : List Char) :
    skipBlanks (blanks ++ cs) = skipBlanks cs := by
  induction blanks with
  | nil => rfl
  | cons c rest ih =>
    rw [List.cons_append, skipBlanks, List.dropWhile_cons_of_pos (blank c List.mem_cons_self)]
    exact ih fun d member => blank d (List.mem_cons_of_mem c member)

/-- A character that is not blank is not skipped, nor is anything behind it. -/
theorem skipBlanks_cons {c : Char} (solid : isBlank c = false) (cs : List Char) :
    skipBlanks (c :: cs) = c :: cs := by
  rw [skipBlanks, List.dropWhile_cons_of_neg (by simp [solid])]

/-- Blanks are skipped up to the first other character. -/
theorem skipBlanks_append_cons {blanks : List Char} (blank : Blank blanks) {c : Char}
    (solid : isBlank c = false) (cs : List Char) : skipBlanks (blanks ++ c :: cs) = c :: cs := by
  rw [skipBlanks_append blank, skipBlanks_cons solid]

/-- What a reader takes for a value, a reader that converts values takes for the converted. -/
theorem Reads.map {reader : Reader α} {text : List Char} {value : α}
    (reads : Reads reader text value) (f : α → β) :
    Reads (fun cs => (reader cs).map fun (value, cs) => (f value, cs)) text (f value) := by
  intro blanks blank rest
  change (reader (blanks ++ (text ++ rest))).map _ = _
  rw [reads blanks blank rest]
  rfl

/-- A symbol is read behind blanks. -/
theorem symbol_written {blanks : List Char} (blank : Blank blanks) {c : Char}
    (solid : isBlank c = false) (rest : List Char) :
    symbol c (blanks ++ c :: rest) = .ok ((), rest) := by
  rw [symbol, skipBlanks_append_cons blank solid]
  exact if_pos rfl

/-- The letters of a literal are read as the value that it stands for. -/
theorem reads_literal {c : Char} (solid : isBlank c = false) (letters : List Char) (value : α) :
    Reads (literal (c :: letters) value) (c :: letters) value := by
  intro blanks blank rest
  rw [literal, List.cons_append, skipBlanks_append_cons blank solid]
  simp

/-- A whole text that a reader takes for a value is a document of it. -/
theorem document_written {reader : Reader α} {text : String} {value : α}
    (reads : Reads reader text.toList value) : document reader text = .ok value := by
  have whole := reads [] blank_nil []
  rw [List.nil_append, List.append_nil] at whole
  rw [document, whole]
  rfl

/-! ### Strings -/

/-- The digits that the library writes are read at their value. -/
theorem hexDigit?_digitChar : ∀ n < 16, Text.hexDigit? (Nat.digitChar n) = some n := by decide

/-- The escape of a control character by its code is read as the character. -/
theorem codeUnit?_of_lt {n : Nat} (control : n < 256) :
    codeUnit? '0' '0' (Nat.digitChar (n / 16)) (Nat.digitChar (n % 16)) = some n := by
  have zero : Text.hexDigit? '0' = some 0 := rfl
  have high := hexDigit?_digitChar (n / 16) (by omega)
  have low := hexDigit?_digitChar (n % 16) (by omega)
  rw [codeUnit?, Text.hexadecimal?, if_neg (List.cons_ne_nil _ _)]
  simp only [Text.digitsFrom?, zero, high, low]
  congr 1
  omega

/-- The one-letter escapes. -/
theorem stringRest_letter {letter c : Char} (stands : escaped? letter = some c)
    (rest : List Char) : stringRest ('\\' :: letter :: rest) = consChar c (stringRest rest) := by
  rw [stringRest.eq_def]
  simp only [Char.reduceEq, if_false, if_true]
  split
  · rename_i same
    obtain ⟨rfl, -⟩ := List.cons.inj same
    cases stands
  · rename_i same
    obtain ⟨rfl, rfl⟩ := List.cons.inj same
    rw [stands]
  · rename_i same
    cases same

/-- The characters that stand for themselves. -/
theorem stringRest_plain {c : Char} (quote : c ≠ '"') (backslash : c ≠ '\\')
    (control : ¬ c < ' ') (rest : List Char) :
    stringRest (c :: rest) = consChar c (stringRest rest) := by
  rw [stringRest.eq_def]
  simp only [quote, backslash, control, if_false]

/-! ### Joined pieces -/

/-- Joining pieces that are not empty gives at least a character for each of them. -/
theorem length_le_length_intercalate (separator : List Char) {pieces : List (List Char)}
    (filled : ∀ piece ∈ pieces, piece ≠ []) :
    pieces.length ≤ (separator.intercalate pieces).length := by
  induction pieces with
  | nil => exact Nat.zero_le _
  | cons piece rest ih =>
    have here := List.length_pos_iff.mpr (filled piece List.mem_cons_self)
    have later := ih fun other member => filled other (List.mem_cons_of_mem piece member)
    cases rest with
    | nil => simpa [Nat.succ_le_iff] using here
    | cons next rest =>
      rw [List.intercalate_cons_cons, List.length_append, List.length_append, List.length_cons]
      omega

/-- Values with brackets around them, one to a line, as characters. -/
theorem lines_chars (opening closing : String) (depth : Nat) {values : List String}
    (filled : values ≠ []) :
    (lines opening closing depth values).toList =
      opening.toList ++ ((lineBreak (depth + 1)).toList ++
        ((',' :: (lineBreak (depth + 1)).toList).intercalate (values.map String.toList) ++
          ((lineBreak depth).toList ++ closing.toList))) := by
  simp only [lines, List.isEmpty_iff, filled, if_false, String.toList_append,
    String.toList_intercalate, List.append_assoc]
  rfl

/-- Joined pieces begin as the first of them. -/
theorem exists_intercalate_eq_cons (separator : List Char) {piece cs : List Char} {c : Char}
    (start : piece = c :: cs) (others : List (List Char)) :
    ∃ rest, separator.intercalate (piece :: others) = c :: rest := by
  rw [start]
  cases others with
  | nil => exact ⟨cs, List.intercalate_singleton⟩
  | cons second others =>
    rw [List.intercalate_cons_cons]
    exact ⟨_, rfl⟩

/-! ### Arrays of strings -/

variable {σ : Type} {element : σ → Reader σ}

/-- The strings of an array lead from a state to another: the reader of elements in the state so
    far takes the next string for the next state. -/
inductive StringsRead (element : σ → Reader σ) : σ → List String → σ → Prop
  | nil (state : σ) : StringsRead element state [] state
  | cons {state next last : σ} {content : String} {rest : List String}
      (reads : Reads (element state) (quoted content).toList next)
      (later : StringsRead element next rest last) :
      StringsRead element state (content :: rest) last

/-- A string that is written in front of others is read up to the comma. -/
theorem elementsFrom_next {state next : σ} {content : String}
    (reads : Reads (element state) (quoted content).toList next) (fuel : Nat) (cs : List Char) :
    elementsFrom element (fuel + 1) state ((quoted content).toList ++ ',' :: cs) =
      elementsFrom element fuel next cs := by
  have here := reads [] blank_nil (',' :: cs)
  rw [List.nil_append] at here
  rw [elementsFrom, here]
  simp only [bind, Except.bind, skipBlanks_cons (c := ',') rfl]

/-- The last string that is written is read up to the closing bracket. -/
theorem elementsFrom_last {state next : σ} {content : String}
    (reads : Reads (element state) (quoted content).toList next) (fuel : Nat) (cs : List Char) :
    elementsFrom element (fuel + 1) state ((quoted content).toList ++ ']' :: cs) =
      .ok (next, cs) := by
  have here := reads [] blank_nil (']' :: cs)
  rw [List.nil_append] at here
  rw [elementsFrom, here]
  simp only [bind, Except.bind, skipBlanks_cons (c := ']') rfl]

/-- The characters of strings with commas between them. -/
def stringsChars (contents : List String) : List Char :=
  [','].intercalate (contents.map fun content => (quoted content).toList)

/-- A comma stands between a string and the next one. -/
theorem stringsChars_cons_cons (first second : String) (others : List String) :
    stringsChars (first :: second :: others) =
      (quoted first).toList ++ ',' :: stringsChars (second :: others) := by
  rw [stringsChars, stringsChars, List.map_cons, List.map_cons, List.intercalate_cons_cons,
    List.append_assoc, List.singleton_append]

/-- Strings that are written behind each other are read one by one, as long as there is fuel for
    each of them. -/
theorem elementsFrom_written {state last : σ} {first : String} {others : List String}
    (reads : StringsRead element state (first :: others) last) {fuel : Nat}
    (fueled : others.length < fuel) (rest : List Char) :
    elementsFrom element fuel state (stringsChars (first :: others) ++ ']' :: rest) =
      .ok (last, rest) := by
  -- On the strings behind the first, since the last one ends in a bracket and no comma.
  induction others generalizing state first fuel with
  | nil =>
    obtain _ | ⟨here, later⟩ := reads
    cases later
    obtain ⟨fuel, rfl⟩ := Nat.exists_eq_add_one.mpr fueled
    rw [stringsChars, List.map_singleton, List.intercalate_singleton, elementsFrom_last here]
  | cons second others ih =>
    obtain _ | ⟨here, later⟩ := reads
    obtain ⟨fuel, rfl⟩ := Nat.exists_eq_add_one.mpr (Nat.zero_lt_of_lt fueled)
    rw [stringsChars_cons_cons, List.append_assoc, List.cons_append, elementsFrom_next here]
    exact ih later (Nat.lt_of_succ_lt_succ fueled)

/-- An array of strings that is written without blanks is read string by string. -/
theorem reads_compactArray {state last : σ} {contents : List String}
    (reads : StringsRead element state contents last) :
    Reads (array element state) (compactArray (contents.map quoted)).toList last := by
  intro blanks blank rest
  have text : (compactArray (contents.map quoted)).toList =
      '[' :: (stringsChars contents ++ [']']) := by
    simp only [compactArray, stringsChars, String.toList_append, String.toList_intercalate,
      List.map_map, Function.comp_def]
    rfl
  simp only [text, array, List.cons_append, List.append_assoc, List.nil_append,
    symbol_written blank (c := '[') rfl, bind, Except.bind]
  cases contents with
  | nil =>
    cases reads
    rfl
  | cons first others =>
    have fueled : others.length < (stringsChars (first :: others) ++ ']' :: rest).length := by
      have filled : ∀ piece ∈ (first :: others).map fun content => (quoted content).toList,
          piece ≠ [] := by
        intro piece member
        obtain ⟨content, _, rfl⟩ := List.mem_map.mp member
        simp [quoted]
      have counted := length_le_length_intercalate [','] filled
      simp only [stringsChars, List.length_map, List.length_cons, List.length_append] at counted ⊢
      omega
    have elements := elementsFrom_written reads fueled rest
    -- The first string begins with its quote, so the array is not taken for empty.
    obtain ⟨cs, start⟩ : ∃ cs, stringsChars (first :: others) = '"' :: cs :=
      exists_intercalate_eq_cons _ String.toList_ofList _
    rw [start] at elements ⊢
    exact elements

end ItemLogic.Json
