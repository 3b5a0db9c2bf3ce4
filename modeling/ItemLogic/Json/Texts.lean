import ItemLogic.Json.Lemmas

/-!
# The texts of strings and objects

A value may be written in many ways: blanks stand around the parts of an object, and a
character of a string stands for itself or is escaped. The relations below say which texts are
those of a string and of an object, whatever their layout, and readers take all of them for what
they are. The fields of an object are taken in their order, and the first one that is refused is
reported. What is written, with one field to a line or without blanks, is one of the texts.
-/

namespace ItemLogic.Json

/-! ### Strings -/

/-- What may stand between the quotes of a string: each character of its content stands for
    itself or by an escape, if need be by a pair of code units. -/
inductive Letters : List Char → List Char → Prop
  | nil : Letters [] []
  | plain {c : Char} {content letters : List Char} (quote : c ≠ '"') (backslash : c ≠ '\\')
      (control : ¬ c < ' ') (later : Letters content letters) :
      Letters (c :: content) (c :: letters)
  | letter {c letter : Char} {content letters : List Char} (stands : escaped? letter = some c)
      (later : Letters content letters) : Letters (c :: content) ('\\' :: letter :: letters)
  | unit {a b c d : Char} {n : Nat} {content letters : List Char}
      (code : codeUnit? a b c d = some n) (notHigh : isHighSurrogate n = false)
      (notLow : isLowSurrogate n = false) (later : Letters content letters) :
      Letters (Char.ofNat n :: content) ('\\' :: 'u' :: a :: b :: c :: d :: letters)
  | pair {a b c d e f g h : Char} {high low : Nat} {content letters : List Char}
      (first : codeUnit? a b c d = some high) (begins : isHighSurrogate high = true)
      (second : codeUnit? e f g h = some low) (ends : isLowSurrogate low = true)
      (later : Letters content letters) :
      Letters (ofSurrogates high low :: content)
        ('\\' :: 'u' :: a :: b :: c :: d :: '\\' :: 'u' :: e :: f :: g :: h :: letters)

/-- The texts of a string. -/
def StringText (content : String) (text : List Char) : Prop :=
  ∃ letters, Letters content.toList letters ∧ text = '"' :: (letters ++ ['"'])

/-- The letters of a string are read up to the closing quote. -/
theorem Letters.stringRest_eq {content letters : List Char} (written : Letters content letters)
    (rest : List Char) : stringRest (letters ++ '"' :: rest) = .ok (content, rest) := by
  induction written with
  | nil => rw [List.nil_append, stringRest.eq_def]; rfl
  | plain quote backslash control later ih =>
    rw [List.cons_append, stringRest_plain quote backslash control, ih]
    rfl
  | letter stands later ih =>
    rw [List.cons_append, List.cons_append, stringRest_letter stands, ih]
    rfl
  | unit code notHigh notLow later ih =>
    rw [stringRest.eq_def]
    simp only [List.cons_append, Char.reduceEq, if_false, if_true, code, notHigh, notLow,
      Bool.false_eq_true, ih]
    rfl
  | pair first begins second ends later ih =>
    rw [stringRest.eq_def]
    simp only [List.cons_append, Char.reduceEq, if_false, if_true, first, begins, second, ends, ih]
    rfl

/-- Every text of a string is read as the string. -/
theorem reads_stringText {content : String} {text : List Char} (written : StringText content text) :
    Reads string text content := by
  obtain ⟨letters, written, rfl⟩ := written
  intro blanks blank rest
  rw [List.cons_append, string, skipBlanks_append_cons blank rfl, List.append_assoc]
  change (stringRest _).map _ = _
  rw [List.singleton_append, written.stringRest_eq]
  simp [Except.map]

/-- The texts of `null`. -/
def NullText (_ : Unit) (text : List Char) : Prop := text = ['n', 'u', 'l', 'l']

/-- The text of `null` is read as `null`. -/
theorem reads_nullText {text : List Char} (written : NullText () text) : Reads null text () :=
  written ▸ reads_literal rfl ['u', 'l', 'l'] ()

/-! ### Objects -/

variable {α : Type} {ValueText : α → List Char → Prop}

/-- The texts of a field, given the texts of its value. -/
inductive FieldText (ValueText : α → List Char → Prop) : String × α → List Char → Prop
  | mk {entry : String × α} {before name between after value behind : List Char}
      (blankBefore : Blank before) (nameText : StringText entry.1 name)
      (blankBetween : Blank between) (blankAfter : Blank after)
      (valueText : ValueText entry.2 value) (blankBehind : Blank behind) :
      FieldText ValueText entry
        (before ++ (name ++ (between ++ ':' :: (after ++ (value ++ behind)))))

/-- The texts of fields up to the closing brace of their object. -/
inductive FieldsText (ValueText : α → List Char → Prop) : List (String × α) → List Char → Prop
  | last {entry : String × α} {piece : List Char} (field : FieldText ValueText entry piece) :
      FieldsText ValueText [entry] (piece ++ ['}'])
  | next {entry : String × α} {piece : List Char} {entries : List (String × α)} {text : List Char}
      (field : FieldText ValueText entry piece) (later : FieldsText ValueText entries text) :
      FieldsText ValueText (entry :: entries) (piece ++ ',' :: text)

/-- The texts of an object with some fields, in their order. -/
inductive ObjectText (ValueText : α → List Char → Prop) : List (String × α) → List Char → Prop
  | empty {blanks : List Char} (blank : Blank blanks) :
      ObjectText ValueText [] ('{' :: (blanks ++ ['}']))
  | filled {entries : List (String × α)} {text : List Char}
      (fields : FieldsText ValueText entries text) : ObjectText ValueText entries ('{' :: text)

/-- An object with one field, part by part. -/
theorem ObjectText.exists_of_singleton {entry : String × α} {text : List Char}
    (written : ObjectText ValueText [entry] text) :
    ∃ before name between after value behind, Blank before ∧ StringText entry.1 name ∧
      Blank between ∧ Blank after ∧ ValueText entry.2 value ∧ Blank behind ∧
      text = '{' :: (before ++ (name ++ (between ++ ':' :: (after ++ (value ++
        (behind ++ ['}'])))))) := by
  obtain _ | fields := written
  obtain ⟨field⟩ | ⟨_, later⟩ := fields
  · obtain ⟨before, nameText, between, after, valueText, behind⟩ := field
    exact ⟨_, _, _, _, _, _, before, nameText, between, after, valueText, behind, by simp⟩
  · cases later

variable {σ : Type} {field : σ → String → Except JsonFault (Reader σ)}
  {take : σ → String × α → Except JsonFault σ}

/-- The reader of a field takes an entry into a state, whatever the text of its value; what is
    refused is refused for its name. -/
structure Takes (field : σ → String → Except JsonFault (Reader σ))
    (ValueText : α → List Char → Prop) (take : σ → String × α → Except JsonFault σ)
    (entry : String × α) : Prop where
  refuses : ∀ state fault, take state entry = .error fault → field state entry.1 = .error fault
  accepts : ∀ state next, take state entry = .ok next →
    ∃ reader, field state entry.1 = .ok reader ∧
      ∀ text, ValueText entry.2 text → Reads reader text next

/-- A field in front of others is taken up to the comma. -/
theorem Takes.fieldsFrom_comma {entry : String × α} (takes : Takes field ValueText take entry)
    {piece : List Char} (written : FieldText ValueText entry piece) (fuel : Nat) (state : σ)
    (cs : List Char) :
    fieldsFrom field (fuel + 1) state (piece ++ ',' :: cs) =
      (take state entry).bind fun next => fieldsFrom field fuel next cs := by
  obtain ⟨before, nameText, between, after, valueText, behind⟩ := written
  rw [fieldsFrom, List.append_assoc, List.append_assoc, reads_stringText nameText _ before]
  cases taken : take state entry with
  | error fault =>
    simp only [bind, Except.bind, takes.refuses state fault taken]
  | ok next =>
    obtain ⟨reader, known, reads⟩ := takes.accepts state next taken
    simp only [bind, Except.bind, known, List.append_assoc, List.cons_append,
      symbol_written between (c := ':') rfl, reads _ valueText _ after,
      skipBlanks_append_cons behind (c := ',') rfl]

/-- The last field of an object is taken up to the closing brace. -/
theorem Takes.fieldsFrom_brace {entry : String × α} (takes : Takes field ValueText take entry)
    {piece : List Char} (written : FieldText ValueText entry piece) (fuel : Nat) (state : σ)
    (cs : List Char) :
    fieldsFrom field (fuel + 1) state (piece ++ '}' :: cs) =
      (take state entry).map fun next => (next, cs) := by
  obtain ⟨before, nameText, between, after, valueText, behind⟩ := written
  rw [fieldsFrom, List.append_assoc, List.append_assoc, reads_stringText nameText _ before]
  cases taken : take state entry with
  | error fault =>
    simp only [bind, Except.bind, takes.refuses state fault taken]
    rfl
  | ok next =>
    obtain ⟨reader, known, reads⟩ := takes.accepts state next taken
    simp only [bind, Except.bind, known, List.append_assoc, List.cons_append,
      symbol_written between (c := ':') rfl, reads _ valueText _ after,
      skipBlanks_append_cons behind (c := '}') rfl]
    rfl

/-- Fields are taken one by one, as long as there is fuel for each of them. -/
theorem fieldsFrom_eq_foldlM {entries : List (String × α)}
    (takes : ∀ entry ∈ entries, Takes field ValueText take entry) {text : List Char}
    (written : FieldsText ValueText entries text) {fuel : Nat} (fueled : entries.length ≤ fuel)
    (state : σ) (rest : List Char) :
    fieldsFrom field fuel state (text ++ rest) =
      (entries.foldlM take state).map fun next => (next, rest) := by
  induction written generalizing fuel state with
  | @last entry piece here =>
    obtain ⟨fuel, rfl⟩ := Nat.exists_eq_add_one.mpr fueled
    rw [List.append_assoc, List.singleton_append,
      (takes entry List.mem_cons_self).fieldsFrom_brace here]
    cases taken : take state entry <;> simp [taken, bind, Except.bind, pure, Except.pure]
  | @next entry piece entries text here later ih =>
    obtain ⟨fuel, rfl⟩ := Nat.exists_eq_add_one.mpr (Nat.zero_lt_of_lt fueled)
    rw [List.append_assoc, List.cons_append,
      (takes entry List.mem_cons_self).fieldsFrom_comma here]
    cases taken : take state entry with
    | error fault => simp [taken, bind, Except.bind, Except.map]
    | ok next =>
      simp only [List.foldlM_cons, taken, bind, Except.bind]
      exact ih (fun other member => takes other (List.mem_cons_of_mem entry member))
        (Nat.le_of_succ_le_succ fueled) next

/-- The text of a field begins with a quote, behind blanks. -/
theorem FieldText.exists_eq_append {entry : String × α} {piece : List Char}
    (written : FieldText ValueText entry piece) :
    ∃ blanks cs, Blank blanks ∧ piece = blanks ++ '"' :: cs := by
  obtain ⟨before, ⟨letters, _, rfl⟩, _, _, _, _⟩ := written
  exact ⟨_, _, before, rfl⟩

/-- The text of fields begins with a quote, behind blanks. -/
theorem FieldsText.exists_eq_append {entries : List (String × α)} {text : List Char}
    (written : FieldsText ValueText entries text) :
    ∃ blanks cs, Blank blanks ∧ text = blanks ++ '"' :: cs := by
  cases written with
  | last field =>
    obtain ⟨blanks, cs, blank, rfl⟩ := field.exists_eq_append
    exact ⟨blanks, cs ++ ['}'], blank, by simp⟩
  | @next _ _ _ text field _ =>
    obtain ⟨blanks, cs, blank, rfl⟩ := field.exists_eq_append
    exact ⟨blanks, cs ++ ',' :: text, blank, by simp⟩

/-- There is a character for each field. -/
theorem FieldsText.length_le {entries : List (String × α)} {text : List Char}
    (written : FieldsText ValueText entries text) : entries.length ≤ text.length := by
  induction written with
  | last field => simp
  | next field later ih =>
    rw [List.length_cons, List.length_append, List.length_cons]
    omega

/-- The entries of an object are taken one by one, whatever text the object has. -/
theorem object_eq_foldlM {entries : List (String × α)}
    (takes : ∀ entry ∈ entries, Takes field ValueText take entry) {text : List Char}
    (written : ObjectText ValueText entries text) (state : σ)
    {blanks : List Char} (blank : Blank blanks) (rest : List Char) :
    object field state (blanks ++ (text ++ rest)) =
      (entries.foldlM take state).map fun next => (next, rest) := by
  cases written with
  | empty inner =>
    rw [object, List.cons_append, symbol_written blank rfl, List.append_assoc]
    simp only [bind, Except.bind, List.singleton_append,
      skipBlanks_append_cons inner (c := '}') rfl]
    rfl
  | @filled entries text fields =>
    have fueled : entries.length ≤ (text ++ rest).length := by
      rw [List.length_append]
      exact Nat.le_add_right_of_le fields.length_le
    have read := fieldsFrom_eq_foldlM takes fields fueled state rest
    -- The text behind the brace begins with a quote, so the object is not taken for empty.
    obtain ⟨inner, cs, blankInner, rfl⟩ := fields.exists_eq_append
    rw [object, List.cons_append, symbol_written blank rfl]
    simp only [bind, Except.bind, List.append_assoc, List.cons_append,
      skipBlanks_append_cons blankInner (c := '"') rfl] at read ⊢
    exact read

/-- An object whose entries are all taken is read as what they lead to. -/
theorem reads_objectText {entries : List (String × α)}
    (takes : ∀ entry ∈ entries, Takes field ValueText take entry) {text : List Char}
    (written : ObjectText ValueText entries text) {state last : σ}
    (leads : entries.foldlM take state = .ok last) : Reads (object field state) text last := by
  intro blanks blank rest
  rw [object_eq_foldlM takes written state blank rest, leads]
  rfl

/-! ### What is written -/

/-- A character is written as itself or as an escape of it. -/
theorem letters_escape {c : Char} {content letters : List Char} (later : Letters content letters) :
    Letters (c :: content) (escape c ++ letters) := by
  unfold escape
  split_ifs
  iterate 7
    next same =>
      subst same
      exact .letter rfl later
  next control =>
    have small : c.toNat < 32 := control
    have written := later.unit (codeUnit?_of_lt (show c.toNat < 256 by omega))
      (by simp [isHighSurrogate]; omega) (by simp [isLowSurrogate]; omega)
    rwa [Char.ofNat_toNat] at written
  next quote backslash _ _ _ _ _ control => exact .plain quote backslash control later

/-- What is written for a string is one of its texts. -/
theorem stringText_quoted (content : String) : StringText content (quoted content).toList := by
  have letters (cs : List Char) : Letters cs (cs.flatMap escape) := by
    induction cs with
    | nil => exact .nil
    | cons c cs ih => exact letters_escape ih
  exact ⟨_, letters content.toList, String.toList_ofList⟩

/-- A string that is written is read back. -/
theorem reads_string (content : String) : Reads string (quoted content).toList content :=
  reads_stringText (stringText_quoted content)

/-- The characters of a field, with some blanks behind the colon. -/
def fieldChars (space : List Char) (entry : String × String) : List Char :=
  (quoted entry.1).toList ++ ':' :: (space ++ entry.2.toList)

/-- A field that is written is a text of the field, with blanks in front of it and behind. -/
theorem fieldText_written {value : α → String} {before space behind : List Char}
    (blankBefore : Blank before) (blankSpace : Blank space) (blankBehind : Blank behind)
    {entry : String × α} (valueText : ValueText entry.2 (value entry.2).toList) :
    FieldText ValueText entry
      (before ++ (fieldChars space (entry.1, value entry.2) ++ behind)) := by
  have written := FieldText.mk blankBefore (stringText_quoted entry.1) blank_nil blankSpace
    valueText blankBehind
  simpa [fieldChars] using written

/-- Fields that are written behind each other, up to the closing brace. -/
theorem fieldsText_written {value : α → String} {gap space closing : List Char}
    (blankGap : Blank gap) (blankSpace : Blank space) (blankClosing : Blank closing)
    {first : String × α} {others : List (String × α)}
    (valueText : ∀ entry ∈ first :: others, ValueText entry.2 (value entry.2).toList) :
    FieldsText ValueText (first :: others) (gap ++ ((',' :: gap).intercalate
      ((first :: others).map fun entry => fieldChars space (entry.1, value entry.2)) ++
        (closing ++ ['}']))) := by
  -- On the fields behind the first, since the last one ends in a brace and no comma.
  induction others generalizing first with
  | nil =>
    have last := FieldsText.last
      (fieldText_written blankGap blankSpace blankClosing (valueText first List.mem_cons_self))
    simpa using last
  | cons second others ih =>
    have later := ih fun entry member => valueText entry (List.mem_cons_of_mem first member)
    have next := FieldsText.next
      (fieldText_written blankGap blankSpace blank_nil (valueText first List.mem_cons_self)) later
    rw [List.map_cons, List.map_cons, List.intercalate_cons_cons]
    simpa using next

/-- An object that is written with one field to a line is a text of the object. -/
theorem objectText_prettyObject (depth : Nat) (value : α → String) {entries : List (String × α)}
    (valueText : ∀ entry ∈ entries, ValueText entry.2 (value entry.2).toList) :
    ObjectText ValueText entries
      (prettyObject depth (entries.map fun entry => (entry.1, value entry.2))).toList := by
  cases entries with
  | nil =>
    have text : (prettyObject depth []).toList = '{' :: ([] ++ ['}']) := by
      simp [prettyObject, lines]
    rw [List.map_nil, text]
    exact .empty blank_nil
  | cons first others =>
    have chars (name value : String) :
        (quoted name ++ ": " ++ value).toList = fieldChars [' '] (name, value) := by
      simp [fieldChars]
    have written := ObjectText.filled (fieldsText_written (blank_lineBreak (depth + 1)) blank_space
      (blank_lineBreak depth) valueText)
    rw [prettyObject, lines_chars _ _ _ (by simp)]
    simp only [List.map_map, Function.comp_def, chars]
    exact written

/-- An object that is written without blanks is a text of the object. -/
theorem objectText_compactObject (value : α → String) {entries : List (String × α)}
    (valueText : ∀ entry ∈ entries, ValueText entry.2 (value entry.2).toList) :
    ObjectText ValueText entries
      (compactObject (entries.map fun entry => (entry.1, value entry.2))).toList := by
  cases entries with
  | nil =>
    have text : (compactObject []).toList = '{' :: ([] ++ ['}']) := by simp [compactObject]
    rw [List.map_nil, text]
    exact .empty blank_nil
  | cons first others =>
    have chars (name value : String) :
        (quoted name ++ ":" ++ value).toList = fieldChars [] (name, value) := by
      simp [fieldChars]
    have written := ObjectText.filled (fieldsText_written blank_nil blank_nil blank_nil valueText)
    simp only [compactObject, String.toList_append, String.toList_intercalate, List.map_map,
      Function.comp_def, chars]
    exact written

end ItemLogic.Json
