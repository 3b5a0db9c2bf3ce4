import ItemLogic.Seed
import ItemLogic.Text.Lemmas
import Mathlib.Data.List.Basic
import Mathlib.Data.Nat.Digits.Defs

/-!
# Which texts are seeds

A text is read as a seed exactly when it is a run of hexadecimal digits with a value that
fits a 32-bit word. The run may be of any length: leading zeros do not count, and a value
beyond the word is refused. A seed is shown as eight capital digits that read back as the
seed, so what is shown tells seeds apart.
-/

namespace ItemLogic

namespace Text

/-- The hexadecimal digits in order of value, in small letters. -/
def hexDigits : List Char :=
  ['0', '1', '2', '3', '4', '5', '6', '7', '8', '9', 'a', 'b', 'c', 'd', 'e', 'f']

/-- The value of a run of hexadecimal digits of either case, without a bound. -/
def hexValue (digits : List Char) : Nat :=
  Nat.ofDigits 16 (digits.map fun c => hexDigits.idxOf c.toLower).reverse

/-! ### Reading digits -/

/-- All digits are ASCII characters. -/
theorem toNat_lt_of_mem_hexDigits {c : Char} (member : c ∈ hexDigits) : c.toNat < 128 := by
  have listed : hexDigits.all (·.toNat < 128) = true := by decide
  exact of_decide_eq_true (List.all_eq_true.mp listed c member)

/-- The digits that are read are those in the list, of either case, and their place there is
    their value. -/
theorem hexDigit?_eq (c : Char) :
    hexDigit? c = if c.toLower ∈ hexDigits then some (hexDigits.idxOf c.toLower) else none := by
  have ascii : ∀ n < 128, hexDigit? (Char.ofNat n) =
      if (Char.ofNat n).toLower ∈ hexDigits then some (hexDigits.idxOf (Char.ofNat n).toLower)
      else none := by
    decide +kernel
  by_cases low : c.toNat < 128
  · simpa using ascii c.toNat low
  -- Beyond ASCII no character has another case, and none is a digit.
  · have same : c.toLower = c := by
      have above : ¬ c.val ≤ 'Z'.val := by
        intro below
        exact low (Nat.lt_of_le_of_lt (UInt32.le_iff_toNat_le.mp below) (by decide))
      exact dif_neg fun upper => above upper.2
    have above {d : Char} (ascii : d.toNat < 128) : ¬ c ≤ d := fun below =>
      low (Nat.lt_of_le_of_lt (UInt32.le_iff_toNat_le.mp (Char.le_def.mp below)) ascii)
    have outside : c ∉ hexDigits := fun member => low (toNat_lt_of_mem_hexDigits member)
    rw [same, if_neg outside, hexDigit?]
    simp [above (d := '9') (by decide), above (d := 'f') (by decide), above (d := 'F') (by decide)]

/-- Read from the left, each digit is added to sixteen times the value before it. -/
theorem hexValue_eq_foldl (digits : List Char) :
    hexValue digits = digits.foldl (fun value c => 16 * value + hexDigits.idxOf c.toLower) 0 := by
  rw [hexValue, Nat.ofDigits_eq_foldr, List.foldr_reverse, List.foldl_map]
  simp [Nat.add_comm]

/-- A hexadecimal numeral is one or more digits, and it is read at its value. -/
theorem hexadecimal?_eq_some_iff {cs : List Char} {n : Nat} :
    hexadecimal? cs = some n ↔
      cs ≠ [] ∧ (∀ c ∈ cs, c.toLower ∈ hexDigits) ∧ hexValue cs = n := by
  have digit {c : Char} : (hexDigit? c).isSome = true ↔ c.toLower ∈ hexDigits := by
    rw [hexDigit?_eq]
    split <;> simp_all
  have value (hexadecimal : ∀ c ∈ cs, c.toLower ∈ hexDigits) :
      cs.foldl (fun value c => 16 * value + (hexDigit? c).getD 0) 0 = hexValue cs := by
    rw [hexValue_eq_foldl]
    refine List.foldl_ext _ _ _ fun value c member => ?_
    rw [hexDigit?_eq, if_pos (hexadecimal c member)]
    rfl
  rw [hexadecimal?]
  split
  · rename_i empty
    simp [empty]
  · rename_i filled
    simp only [digitsFrom?_eq_some_iff, digit]
    constructor
    · rintro ⟨hexadecimal, rfl⟩
      exact ⟨filled, hexadecimal, (value hexadecimal).symm⟩
    · rintro ⟨_, hexadecimal, rfl⟩
      exact ⟨hexadecimal, value hexadecimal⟩

/-- No hexadecimal digit is blank. -/
theorem isBlank_of_toLower_mem_hexDigits {c : Char} (digit : c.toLower ∈ hexDigits) :
    isBlank c = false := by
  have read : (hexDigit? c).isSome = true := by
    rw [hexDigit?_eq, if_pos digit]
    rfl
  have bounds : 48 ≤ c.toNat ∧ c.toNat ≤ 102 := by
    simp only [hexDigit?, Bool.and_eq_true, decide_eq_true_eq, Char.le_def,
      UInt32.le_iff_toNat_le, Char.toNat_val] at read
    grind
  simp only [isBlank]
  simp
  omega

/-! ### Writing digits -/

/-- The digits that are written, in order of value. -/
def capitalHexDigits : List Char :=
  ['0', '1', '2', '3', '4', '5', '6', '7', '8', '9', 'A', 'B', 'C', 'D', 'E', 'F']

/-- The digit that is written for a value is one of the capital digits. -/
theorem capitalHexDigit_mem : ∀ n < 16, capitalHexDigit n ∈ capitalHexDigits := by decide

/-- A capital digit stands at the place of its value. -/
theorem idxOf_toLower_capitalHexDigit :
    ∀ n < 16, hexDigits.idxOf (capitalHexDigit n).toLower = n := by
  decide

/-- Capital digits are digits. -/
theorem toLower_mem_of_mem_capitalHexDigits {c : Char} (member : c ∈ capitalHexDigits) :
    c.toLower ∈ hexDigits := by
  have listed : capitalHexDigits.all (fun c => c.toLower ∈ hexDigits) = true := by decide
  exact of_decide_eq_true (List.all_eq_true.mp listed c member)

/-- A number is written with exactly as many digits as it is padded to. -/
theorem length_paddedHexadecimal (width n : Nat) : (paddedHexadecimal width n).length = width := by
  induction width generalizing n with
  | zero => rfl
  | succ width ih => rw [paddedHexadecimal, List.length_append, ih, List.length_singleton]

/-- Only capital digits are written. -/
theorem mem_paddedHexadecimal {width n : Nat} {c : Char} (member : c ∈ paddedHexadecimal width n) :
    c ∈ capitalHexDigits := by
  induction width generalizing n with
  | zero => cases member
  | succ width ih =>
    rw [paddedHexadecimal] at member
    rcases List.mem_append.mp member with high | low
    · exact ih high
    · rw [List.mem_singleton.mp low]
      exact capitalHexDigit_mem (n % 16) (Nat.mod_lt n (by decide))

/-- A number is written by its last digits. -/
theorem hexValue_paddedHexadecimal (width n : Nat) :
    hexValue (paddedHexadecimal width n) = n % 16 ^ width := by
  induction width generalizing n with
  | zero => simp [paddedHexadecimal, hexValue, Nat.mod_one]
  | succ width ih =>
    have low := idxOf_toLower_capitalHexDigit (n % 16) (Nat.mod_lt n (by decide))
    rw [paddedHexadecimal, hexValue_eq_foldl, List.foldl_append, ← hexValue_eq_foldl, ih,
      List.foldl_cons, List.foldl_nil, low, Nat.pow_succ', Nat.mod_mul, Nat.add_comm]

end Text

namespace Seed

/-- Whether a text is a hexadecimal numeral of a 32-bit word: without the blanks around it, one
    or more digits of either case with a value in range. -/
def IsNumeral (text : String) : Prop :=
  Text.trim text.toList ≠ [] ∧ (∀ c ∈ Text.trim text.toList, c.toLower ∈ Text.hexDigits) ∧
    Text.hexValue (Text.trim text.toList) ≤ 4294967295

/-- A text is read as the seed that it is a numeral of. -/
theorem ofText?_eq_some_iff {text : String} {seed : Seed} :
    ofText? text = some seed ↔
      IsNumeral text ∧ seed.value.toNat = Text.hexValue (Text.trim text.toList) := by
  rw [ofText?]
  constructor
  · intro read
    split at read
    · rename_i value number
      obtain ⟨filled, hexadecimal, rfl⟩ := Text.hexadecimal?_eq_some_iff.mp number
      split at read
      · rename_i fits
        cases read
        exact ⟨⟨filled, hexadecimal, Nat.le_of_lt_succ fits⟩, UInt32.toNat_ofNat_of_lt fits⟩
      · cases read
    · cases read
  · rintro ⟨⟨filled, hexadecimal, fits⟩, same⟩
    rw [Text.hexadecimal?_eq_some_iff.mpr ⟨filled, hexadecimal, rfl⟩]
    refine (if_pos (Nat.lt_succ_of_le fits)).trans ?_
    rw [← same, UInt32.ofNat_toNat]

/-- A text denotes a seed when, apart from blanks around it, it is one or more digits with the
    value of the seed. -/
theorem ofText?_eq_some_iff_around {text : String} {seed : Seed} :
    ofText? text = some seed ↔ ∃ before digits after,
      Text.Blank before ∧ Text.Blank after ∧ text.toList = before ++ (digits ++ after) ∧
        digits ≠ [] ∧ (∀ c ∈ digits, c.toLower ∈ Text.hexDigits) ∧
          Text.hexValue digits = seed.value.toNat := by
  have trimmed (digits : List Char) (numeral : digits ≠ [] ∧
      (∀ c ∈ digits, c.toLower ∈ Text.hexDigits) ∧ Text.hexValue digits = seed.value.toNat) :
      Text.IsTrimmed digits :=
    Text.isTrimmed_of_no_blank fun c member =>
      Text.isBlank_of_toLower_mem_hexDigits (numeral.2.1 c member)
  rw [ofText?_eq_some_iff, IsNumeral, ← Text.trim_iff_exists_around trimmed]
  constructor
  · rintro ⟨⟨filled, hexadecimal, _⟩, value⟩
    exact ⟨filled, hexadecimal, value.symm⟩
  · rintro ⟨filled, hexadecimal, value⟩
    -- The value of a seed always fits its word.
    have fits : seed.value.toNat ≤ 4294967295 := Nat.le_of_lt_succ seed.value.toNat_lt
    exact ⟨⟨filled, hexadecimal, value ▸ fits⟩, value.symm⟩

/-- A text that is no numeral of a 32-bit word denotes no seed. -/
theorem ofText?_eq_none_iff {text : String} : ofText? text = none ↔ ¬ IsNumeral text := by
  constructor
  · intro unread numeral
    have value : (UInt32.ofNat (Text.hexValue (Text.trim text.toList))).toNat =
        Text.hexValue (Text.trim text.toList) :=
      UInt32.toNat_ofNat_of_lt (Nat.lt_succ_of_le numeral.2.2)
    have read : ofText? text = some ⟨_⟩ := ofText?_eq_some_iff.mpr ⟨numeral, value⟩
    cases unread.symm.trans read
  · intro other
    cases read : ofText? text with
    | none => rfl
    | some seed => exact absurd (ofText?_eq_some_iff.mp read).1 other

/-! ### Seeds as they are shown -/

/-- The text of a seed consists of the eight digits of its value. -/
theorem toList_text (seed : Seed) :
    seed.text.toList = Text.paddedHexadecimal 8 seed.value.toNat :=
  String.toList_ofList

/-- The text of a seed has no blanks around it. -/
theorem trim_text (seed : Seed) : Text.trim seed.text.toList = seed.text.toList := by
  refine Text.trim_of_no_blank fun c member => ?_
  rw [toList_text] at member
  exact Text.isBlank_of_toLower_mem_hexDigits
    (Text.toLower_mem_of_mem_capitalHexDigits (Text.mem_paddedHexadecimal member))

/-- A seed is read back from its text. -/
theorem ofText?_text (seed : Seed) : ofText? seed.text = some seed := by
  have value : Text.hexValue seed.text.toList = seed.value.toNat := by
    rw [toList_text, Text.hexValue_paddedHexadecimal]
    exact Nat.mod_eq_of_lt seed.value.toNat_lt
  rw [ofText?_eq_some_iff, IsNumeral, trim_text, value]
  refine ⟨⟨?_, fun c member => ?_, Nat.le_of_lt_succ seed.value.toNat_lt⟩, rfl⟩
  · rw [toList_text]
    exact List.ne_nil_of_length_pos (by rw [Text.length_paddedHexadecimal]; decide)
  · rw [toList_text] at member
    exact Text.toLower_mem_of_mem_capitalHexDigits (Text.mem_paddedHexadecimal member)

/-- Two seeds are shown alike only if they are the same. -/
theorem text_inj {a b : Seed} : a.text = b.text ↔ a = b := by
  refine ⟨fun same => ?_, fun same => same ▸ rfl⟩
  have read : ofText? a.text = some b := same ▸ b.ofText?_text
  exact Option.some.inj (a.ofText?_text.symm.trans read)

/-- A text is read as a seed exactly when it is a hexadecimal numeral of any length with a
    value that fits a 32-bit word, and then at that value. A seed is shown as eight capital
    digits that read back as the seed, so two texts denote one seed exactly when they are
    shown alike. -/
theorem seed_texts_read_exactly :
    (∀ text seed, ofText? text = some seed ↔
        IsNumeral text ∧ seed.value.toNat = Text.hexValue (Text.trim text.toList)) ∧
      (∀ text, ofText? text = none ↔ ¬ IsNumeral text) ∧
      (∀ seed : Seed, seed.text.length = 8 ∧
        (∀ c ∈ seed.text.toList, c ∈ Text.capitalHexDigits) ∧
        ofText? seed.text = some seed ∧ parse seed.text = .ok seed) ∧
      ∀ s t, ofText? s = ofText? t ↔ (ofText? s).map text = (ofText? t).map text := by
  refine ⟨fun _ _ => ofText?_eq_some_iff, fun _ => ofText?_eq_none_iff, fun seed => ?_, ?_⟩
  · have digits := seed.toList_text
    refine ⟨?_, fun c member => ?_, seed.ofText?_text, ?_⟩
    · rw [← String.length_toList, digits, Text.length_paddedHexadecimal]
    · rw [digits] at member
      exact Text.mem_paddedHexadecimal member
    · rw [parse, ofText?_text]
  · intro s t
    have injective : Function.Injective text := fun _ _ => text_inj.mp
    exact (Option.map_injective injective).eq_iff.symm

example : ofText? " 00000000fFfFfFfF " = some ⟨0xFFFFFFFF⟩ ∧ ofText? "100000000" = none := by
  decide +kernel

end Seed

end ItemLogic
