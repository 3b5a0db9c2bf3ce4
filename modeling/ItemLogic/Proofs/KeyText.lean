import ItemLogic.Key.Lemmas
import Mathlib.Data.List.Forall2

/-!
# Which texts are keys

A text is read as a key exactly when its parts, two or four of them, are decimal numerals
of the coordinates. A numeral may carry a sign of either kind and any number of leading
zeros, and its value has to lie in the range of a signed 32-bit word, the lowest and the
highest included. Every other text is refused as it was given.
-/

namespace ItemLogic

namespace Text

/-- A decimal integer as one may write it: one or more digits, with leading zeros or without,
    behind an optional sign. -/
inductive Numeral : List Char → Int → Prop
  | plain {digits : List Char} (filled : digits ≠ []) (decimal : ∀ c ∈ digits, c.isDigit = true) :
      Numeral digits (Nat.ofDigitChars 10 digits 0)
  | positive {digits : List Char} (filled : digits ≠ [])
      (decimal : ∀ c ∈ digits, c.isDigit = true) :
      Numeral ('+' :: digits) (Nat.ofDigitChars 10 digits 0)
  | negative {digits : List Char} (filled : digits ≠ [])
      (decimal : ∀ c ∈ digits, c.isDigit = true) :
      Numeral ('-' :: digits) (-(Nat.ofDigitChars 10 digits 0 : Int))

/-- With a sign applied to it, a natural number is still read from one or more digits and nothing
    else. -/
theorem map_natural?_eq_some_iff {f : Int → Int} {cs : List Char} {value : Int} :
    Option.map f (natural? cs) = some value ↔
      cs ≠ [] ∧ (∀ c ∈ cs, c.isDigit = true) ∧ f (Nat.ofDigitChars 10 cs 0 : Nat) = value := by
  cases read : natural? cs with
  | none =>
    refine ⟨fun number => absurd number (by simp), ?_⟩
    rintro ⟨filled, decimal, _⟩
    have number := natural?_eq_some_iff.mpr ⟨filled, decimal, rfl⟩
    cases read.symm.trans number
  | some n =>
    obtain ⟨filled, decimal, rfl⟩ := natural?_eq_some_iff.mp read
    constructor
    · exact fun same => ⟨filled, decimal, Option.some.inj same⟩
    · exact fun same => congrArg some same.2.2

/-- Exactly the numerals are read as integers. -/
theorem integer?_eq_some_iff {cs : List Char} {value : Int} :
    integer? cs = some value ↔ Numeral cs value := by
  constructor
  · intro read
    unfold integer? at read
    split at read
    all_goals obtain ⟨filled, decimal, rfl⟩ := map_natural?_eq_some_iff.mp read
    · exact .negative filled decimal
    · exact .positive filled decimal
    · exact .plain filled decimal
  · intro numeral
    cases numeral with
    | plain filled decimal =>
      rw [integer?_of_decimal decimal]
      exact map_natural?_eq_some_iff.mpr ⟨filled, decimal, rfl⟩
    | positive filled decimal => exact map_natural?_eq_some_iff.mpr ⟨filled, decimal, rfl⟩
    | negative filled decimal => exact map_natural?_eq_some_iff.mpr ⟨filled, decimal, rfl⟩

/-- No numeral holds a blank. -/
theorem Numeral.isBlank_of_mem {cs : List Char} {value : Int} (numeral : Numeral cs value)
    {c : Char} (member : c ∈ cs) : isBlank c = false := by
  cases numeral with
  | plain _ decimal => exact isBlank_of_isDigit (decimal c member)
  | positive _ decimal | negative _ decimal =>
    rcases List.mem_cons.mp member with rfl | digit
    · rfl
    · exact isBlank_of_isDigit (decimal c digit)

/-- A text is trimmed to a numeral when there is nothing but blanks around the numeral. -/
theorem numeral_trim_iff {cs : List Char} {value : Int} :
    Numeral (trim cs) value ↔ ∃ before numeral after,
      Blank before ∧ Blank after ∧ cs = before ++ (numeral ++ after) ∧ Numeral numeral value :=
  trim_iff_exists_around
    (fun _ read => isTrimmed_of_no_blank fun _ => Numeral.isBlank_of_mem read) cs

end Text

namespace Key

/-! ### Coordinates -/

/-- A coordinate is read from a numeral whose value it is. -/
theorem coordinate?_eq_some_iff {part : List Char} {n : Int32} :
    coordinate? part = some n ↔ Text.Numeral (Text.trim part) n.toInt := by
  rw [← Text.integer?_eq_some_iff, coordinate?]
  split
  · rename_i value read
    rw [read, Option.some.injEq]
    constructor
    · intro fits
      split at fits
      · rename_i bounds
        rw [Int32.toInt_minValue, Int32.toInt_maxValue] at bounds
        rw [← Option.some.inj fits]
        exact (Int32.toInt_ofInt_of_le bounds.1 (by omega)).symm
      · cases fits
    · rintro rfl
      simp only [Int32.minValue_le_toInt, Int32.toInt_le, and_self, if_true, Int32.ofInt_toInt]
  · rename_i unread
    simp [unread]

/-- The numerals of signed words are those with a value in range. -/
theorem exists_numeral_toInt_iff {part : List Char} :
    (∃ n : Int32, Text.Numeral part n.toInt) ↔
      ∃ value, Text.Numeral part value ∧ -2147483648 ≤ value ∧ value ≤ 2147483647 := by
  constructor
  · rintro ⟨n, numeral⟩
    exact ⟨n.toInt, numeral, n.le_toInt, Int.le_of_lt_add_one n.toInt_lt⟩
  · rintro ⟨value, numeral, low, high⟩
    refine ⟨Int32.ofInt value, ?_⟩
    rwa [Int32.toInt_ofInt_of_le low (Int.lt_add_one_of_le high)]

/-- The coordinates that make a key are the coordinates that it has. -/
theorem rank_of_ofCoordinates? {coordinates : List Int32} {key : Key}
    (made : ofCoordinates? coordinates = some key) : key.rank = coordinates.map Int32.toInt := by
  unfold ofCoordinates? at made
  split at made
  · cases made
    rfl
  · cases made
    rfl
  · cases made

/-- Two coordinates or four make a key. -/
theorem exists_ofCoordinates?_iff {coordinates : List Int32} :
    (∃ key, ofCoordinates? coordinates = some key) ↔
      coordinates.length = 2 ∨ coordinates.length = 4 := by
  constructor
  · rintro ⟨key, made⟩
    unfold ofCoordinates? at made
    split at made
    · exact .inl rfl
    · exact .inr rfl
    · cases made
  · rintro (two | four)
    · obtain ⟨level, room, rfl⟩ := List.length_eq_two.mp two
      exact ⟨_, rfl⟩
    · match coordinates, four with
      | [_, _, _, _], _ => exact ⟨_, rfl⟩

/-- Every key is made of coordinates. -/
theorem exists_coordinates (key : Key) : ∃ coordinates, ofCoordinates? coordinates = some key := by
  obtain ⟨level, room, position⟩ := key
  cases position with
  | none => exact ⟨[level, room], rfl⟩
  | some place => exact ⟨[level, room, place.1, place.2], rfl⟩

/-! ### Texts -/

/-- Elements that are each related to something make up a list that is related to a list. -/
theorem exists_forall₂_iff {α β : Type} {R : α → β → Prop} {xs : List α} :
    (∃ ys, List.Forall₂ R xs ys) ↔ ∀ x ∈ xs, ∃ y, R x y := by
  induction xs with
  | nil => simp
  | cons x xs ih =>
    rw [List.forall_mem_cons, ← ih]
    constructor
    · rintro ⟨_, related⟩
      obtain ⟨y, ys, first, later, _⟩ := List.forall₂_cons_left_iff.mp related
      exact ⟨⟨y, first⟩, ⟨ys, later⟩⟩
    · rintro ⟨⟨y, first⟩, ⟨ys, later⟩⟩
      exact ⟨y :: ys, .cons first later⟩

/-- A list is read when each of its elements is, and then as what they are read as. -/
theorem mapM_eq_some_iff {α β : Type} {f : α → Option β} {xs : List α} {ys : List β} :
    xs.mapM f = some ys ↔ List.Forall₂ (fun x y => f x = some y) xs ys := by
  induction xs generalizing ys with
  | nil => simp [eq_comm]
  | cons x xs ih =>
    simp only [List.mapM_cons, Option.bind_eq_bind, Option.bind_eq_some_iff, Option.pure_def,
      Option.some.injEq, ih, List.forall₂_cons_left_iff]
    constructor
    · rintro ⟨y, first, rest, later, rfl⟩
      exact ⟨y, rest, first, later, rfl⟩
    · rintro ⟨y, rest, first, later, rfl⟩
      exact ⟨y, first, rest, later, rfl⟩

/-- The parts of a text between full stops, without the blanks around the text and around
    each part. -/
def parts (text : String) : List (List Char) :=
  (Text.split (· == '.') (Text.trim text.toList)).map Text.trim

/-- The blanks around a text stand around its outer pieces, so the parts are what stands between
    full stops, without the blanks around it. -/
theorem parts_eq_map_trim (text : String) :
    parts text = (text.toList.splitOn '.').map Text.trim := by
  have solid (c : Char) (blank : Text.isBlank c = true) : (c == '.') = false := by
    refine beq_false_of_ne fun stop => ?_
    rw [stop] at blank
    cases blank
  obtain ⟨before, after, blankBefore, blankAfter, around⟩ := Text.exists_eq_append_trim text.toList
  calc parts text
    _ = (Text.split (· == '.') (before ++ (Text.trim text.toList ++ after))).map Text.trim := by
        rw [Text.map_trim_split_append_left solid blankBefore,
          Text.map_trim_split_append_right solid _ blankAfter, parts]
    _ = (text.toList.splitOn '.').map Text.trim := by
        rw [← around, Text.split_eq_splitOnP, List.splitOn_eq_splitOnP]

/-- A text denotes a key when its parts are numerals of some coordinates that make the key. -/
theorem parse_eq_ok_iff_coordinates {text : String} {key : Key} :
    parse text = .ok key ↔
      ∃ coordinates : List Int32,
        List.Forall₂ (fun part n => Text.Numeral part n.toInt) (parts text) coordinates ∧
          ofCoordinates? coordinates = some key := by
  have read : parse text = .ok key ↔ ofChars? text.toList = some key := by
    rw [parse]
    cases ofChars? text.toList <;> simp
  rw [read, ofChars?, Option.bind_eq_some_iff]
  simp only [mapM_eq_some_iff, coordinate?_eq_some_iff, parts, List.forall₂_map_left_iff]

/-- A text denotes the key of whose coordinates its parts are numerals. -/
theorem parse_eq_ok_iff {text : String} {key : Key} :
    parse text = .ok key ↔ List.Forall₂ Text.Numeral (parts text) key.rank := by
  rw [parse_eq_ok_iff_coordinates]
  constructor
  · rintro ⟨coordinates, numerals, made⟩
    rwa [rank_of_ofCoordinates? made, List.forall₂_map_right_iff]
  · intro numerals
    obtain ⟨coordinates, made⟩ := key.exists_coordinates
    rw [rank_of_ofCoordinates? made, List.forall₂_map_right_iff] at numerals
    exact ⟨coordinates, numerals, made⟩

/-- A text denotes a key when what stands between its full stops are numerals of the coordinates,
    apart from blanks around them. -/
theorem parse_eq_ok_iff_around {text : String} {key : Key} :
    parse text = .ok key ↔
      List.Forall₂ (fun piece n => ∃ before numeral after,
          Text.Blank before ∧ Text.Blank after ∧ piece = before ++ (numeral ++ after) ∧
            Text.Numeral numeral n)
        (text.toList.splitOn '.') key.rank := by
  rw [parse_eq_ok_iff, parts_eq_map_trim, List.forall₂_map_left_iff]
  simp only [Text.numeral_trim_iff]

/-- A text denotes a key when it has two or four parts, all of them numerals in range. -/
theorem exists_parse_eq_ok_iff {text : String} :
    (∃ key, parse text = .ok key) ↔
      ((parts text).length = 2 ∨ (parts text).length = 4) ∧
        ∀ part ∈ parts text,
          ∃ n, Text.Numeral part n ∧ -2147483648 ≤ n ∧ n ≤ 2147483647 := by
  simp only [parse_eq_ok_iff_coordinates]
  constructor
  · rintro ⟨key, coordinates, numerals, made⟩
    refine ⟨?_, fun part member => ?_⟩
    · rw [numerals.length_eq]
      exact exists_ofCoordinates?_iff.mp ⟨key, made⟩
    · exact exists_numeral_toInt_iff.mp (exists_forall₂_iff.mp ⟨coordinates, numerals⟩ part member)
  · rintro ⟨count, numerals⟩
    obtain ⟨coordinates, related⟩ := exists_forall₂_iff.mpr fun part member =>
      exists_numeral_toInt_iff.mpr (numerals part member)
    rw [related.length_eq] at count
    obtain ⟨key, made⟩ := exists_ofCoordinates?_iff.mpr count
    exact ⟨key, coordinates, related, made⟩

/-- The text of a key reads back, whatever its coordinates. A text is read exactly when it has
    two or four parts that are numerals of signed 32-bit words, as the key with just those
    coordinates, and every other text is refused as it was given. -/
theorem key_texts_read_exactly :
    (∀ key : Key, parse key.text = .ok key) ∧
      (∀ text key, parse text = .ok key ↔ List.Forall₂ Text.Numeral (parts text) key.rank) ∧
      (∀ text, (∃ key, parse text = .ok key) ↔
        ((parts text).length = 2 ∨ (parts text).length = 4) ∧
          ∀ part ∈ parts text,
            ∃ n, Text.Numeral part n ∧ -2147483648 ≤ n ∧ n ≤ 2147483647) ∧
      ∀ text, (¬ ∃ key, parse text = .ok key) → parse text = .error (.invalidKey text) := by
  refine ⟨fun key => ?_, fun _ _ => parse_eq_ok_iff, fun _ => exists_parse_eq_ok_iff, ?_⟩
  · rw [parse, text, String.toList_ofList, ofChars?_chars]
  · intro text refused
    rw [parse] at refused ⊢
    cases read : ofChars? text.toList with
    | none => rfl
    | some key => exact absurd ⟨key, by rw [read]⟩ refused

example : (parse " +00.-2147483648 ").toOption = some (ofRoom 0 Int32.minValue) := by
  decide +kernel

end Key

end ItemLogic
