import ItemLogic.Text.Numeral
import ItemLogic.Text.Split
import Mathlib.Data.List.DropRight

/-!
# Texts that read back

A number is read from one or more digits, with the value that the library gives them, and
so from the numeral that is written for it; no digit looks like a sign. Trimming takes exactly
the blanks at both ends of a text off, so a text without blanks is left as it is, and
splitting looks at no character but those of the text.
-/

namespace ItemLogic.Text

/-! ### Numerals -/

/-- Digits are read one after the other, and every character has to be one. -/
theorem digitsFrom?_eq_some_iff {digit? : Char → Option Nat} {base value n : Nat}
    {cs : List Char} :
    digitsFrom? digit? base value cs = some n ↔
      (∀ c ∈ cs, (digit? c).isSome = true) ∧
        cs.foldl (fun value c => base * value + (digit? c).getD 0) value = n := by
  induction cs generalizing value with
  | nil => simp [digitsFrom?]
  | cons c cs ih =>
    rw [digitsFrom?]
    cases read : digit? c with
    | none => simp [read]
    | some d => simp [read, ih]

/-- A decimal digit is read at its distance from zero. -/
theorem decimalDigit?_of_isDigit {c : Char} (digit : c.isDigit = true) :
    decimalDigit? c = some (c.toNat - 48) := by
  have bounds : '0' ≤ c ∧ c ≤ '9' := by simpa [Char.isDigit, Char.le_def] using digit
  rw [decimalDigit?, if_pos (by simp [bounds])]

/-- No character but a decimal digit is read as one. -/
theorem isDigit_of_isSome_decimalDigit? {c : Char} (read : (decimalDigit? c).isSome = true) :
    c.isDigit = true := by
  rw [decimalDigit?] at read
  split at read
  · rename_i bounds
    simpa [Char.isDigit, Char.le_def] using bounds
  · cases read

/-- Decimal digits continue a value as the library reads them. -/
theorem digitsFrom?_decimal {digits : List Char} (decimal : ∀ c ∈ digits, c.isDigit = true)
    (value : Nat) :
    digitsFrom? decimalDigit? 10 value digits = some (Nat.ofDigitChars 10 digits value) := by
  induction digits generalizing value with
  | nil => simp [digitsFrom?]
  | cons c cs ih =>
    rw [digitsFrom?, decimalDigit?_of_isDigit (decimal c List.mem_cons_self),
      Nat.ofDigitChars_cons]
    exact ih (fun d member => decimal d (List.mem_cons_of_mem c member)) _

/-- A natural number is read from one or more decimal digits. -/
theorem natural?_eq_some_iff {cs : List Char} {n : Nat} :
    natural? cs = some n ↔
      cs ≠ [] ∧ (∀ c ∈ cs, c.isDigit = true) ∧ Nat.ofDigitChars 10 cs 0 = n := by
  rw [natural?]
  split
  · rename_i empty
    simp [empty]
  · rename_i filled
    constructor
    · intro read
      have decimal : ∀ c ∈ cs, c.isDigit = true := fun c member =>
        isDigit_of_isSome_decimalDigit? ((digitsFrom?_eq_some_iff.mp read).1 c member)
      rw [digitsFrom?_decimal decimal] at read
      exact ⟨filled, decimal, Option.some.inj read⟩
    · rintro ⟨_, decimal, rfl⟩
      exact digitsFrom?_decimal decimal 0

/-- A run of digits has no sign, so it is read as a natural number. -/
theorem integer?_of_decimal {cs : List Char} (decimal : ∀ c ∈ cs, c.isDigit = true) :
    integer? cs = (natural? cs).map fun n => (n : Int) := by
  unfold integer?
  split
  · cases decimal '-' List.mem_cons_self
  · cases decimal '+' List.mem_cons_self
  · rfl

/-- The numeral of a natural number consists of digits. -/
theorem isDigit_of_mem_ofNatural {n : Nat} {c : Char} (member : c ∈ ofNatural n) :
    c.isDigit = true :=
  Nat.isDigit_of_mem_toDigits (by decide) (by decide) member

/-- A natural number is read back from the numeral that is written for it. -/
theorem natural?_ofNatural (n : Nat) : natural? (ofNatural n) = some n := by
  have value : Nat.ofDigitChars 10 (ofNatural n) 0 = n := Nat.ofDigitChars_ten_toDigits
  exact natural?_eq_some_iff.mpr
    ⟨Nat.toDigits_ne_nil, fun _ => isDigit_of_mem_ofNatural, value⟩

/-- An integer is read back from the numeral that is written for it. -/
theorem integer?_ofInteger (value : Int) : integer? (ofInteger value) = some value := by
  cases value with
  | ofNat n =>
    rw [ofInteger, integer?_of_decimal fun _ => isDigit_of_mem_ofNatural, natural?_ofNatural]
    rfl
  | negSucc n =>
    rw [ofInteger, integer?, natural?_ofNatural]
    rfl

/-- A numeral consists of digits behind an optional minus sign. -/
theorem sign_or_isDigit_of_mem_ofInteger {value : Int} {c : Char} (member : c ∈ ofInteger value) :
    c = '-' ∨ c.isDigit = true := by
  cases value with
  | ofNat n => exact .inr (isDigit_of_mem_ofNatural member)
  | negSucc n => exact (List.mem_cons.mp member).imp_right isDigit_of_mem_ofNatural

/-! ### Trimming and splitting -/

/-- No digit is blank. -/
theorem isBlank_of_isDigit {c : Char} (digit : c.isDigit = true) : isBlank c = false := by
  have bounds : 48 ≤ c.toNat ∧ c.toNat ≤ 57 := Char.isDigit_iff_toNat.mp digit
  simp only [isBlank]
  simp
  omega

/-- Whether a text begins with no blank and ends with none. -/
structure IsTrimmed (cs : List Char) : Prop where
  first : ∀ filled : cs ≠ [], isBlank (cs.head filled) = false
  last : ∀ filled : cs ≠ [], isBlank (cs.getLast filled) = false

/-- Trimming the end takes the blanks off that stand there. -/
theorem trimEnd_eq_rdropWhile (cs : List Char) : trimEnd cs = cs.rdropWhile isBlank := rfl

/-- A text that begins and ends with no blank is left as it is. -/
theorem IsTrimmed.trim_eq {cs : List Char} (trimmed : IsTrimmed cs) : trim cs = cs := by
  have start : cs.dropWhile isBlank = cs := by
    cases cs with
    | nil => rfl
    | cons c rest => simp [show isBlank c = false from trimmed.first (List.cons_ne_nil c rest)]
  rw [trim, start, trimEnd_eq_rdropWhile, List.rdropWhile_eq_self_iff]
  exact fun filled => Bool.not_eq_true _ ▸ trimmed.last filled

/-- Trimming leaves no blank at either end. -/
theorem isTrimmed_trim (cs : List Char) : IsTrimmed (trim cs) where
  first filled := by
    have start : trim cs <+: cs.dropWhile isBlank := List.rdropWhile_prefix isBlank _
    rw [start.head filled]
    exact List.head_dropWhile_not isBlank _
  last filled := eq_false_of_ne_true (List.rdropWhile_last_not isBlank _ filled)

/-- Whether a text is nothing but blanks. -/
def Blank (cs : List Char) : Prop := ∀ c ∈ cs, isBlank c = true

/-- Blanks that are put in front are taken off again. -/
theorem trim_append_left {before : List Char} (blank : Blank before) (cs : List Char) :
    trim (before ++ cs) = trim cs := by
  rw [trim, List.dropWhile_append_of_pos blank, trim]

/-- Blanks that are put behind are taken off again. -/
theorem trim_append_right (cs : List Char) {after : List Char} (blank : Blank after) :
    trim (cs ++ after) = trim cs := by
  rw [trim, trim, List.dropWhile_append]
  split
  · rename_i empty
    -- There is nothing but blanks, so nothing is left on either side.
    have gone : trimEnd (after.dropWhile isBlank) = [] :=
      List.rdropWhile_eq_nil_iff.mpr fun c member =>
        blank c ((List.dropWhile_sublist isBlank).subset member)
    rw [gone, List.isEmpty_iff.mp empty]
    rfl
  · rw [trimEnd, trimEnd, List.reverse_append, List.dropWhile_append_of_pos]
    exact fun c member => blank c (List.mem_reverse.mp member)

/-- A text is what trimming leaves of it, with blanks before and behind. -/
theorem exists_eq_append_trim (cs : List Char) :
    ∃ before after, Blank before ∧ Blank after ∧ cs = before ++ (trim cs ++ after) := by
  refine ⟨cs.takeWhile isBlank, (cs.dropWhile isBlank).rtakeWhile isBlank,
    fun c => List.mem_takeWhile_imp, fun c => List.mem_rtakeWhile_imp, ?_⟩
  rw [trim, trimEnd_eq_rdropWhile, List.rdropWhile_append_rtakeWhile,
    List.takeWhile_append_dropWhile]

/-- Trimming takes exactly the blanks at both ends off: what is left begins and ends with none,
    and only blanks have gone. -/
theorem trim_eq_iff {cs kept : List Char} :
    trim cs = kept ↔ IsTrimmed kept ∧
      ∃ before after, Blank before ∧ Blank after ∧ cs = before ++ (kept ++ after) := by
  constructor
  · rintro rfl
    exact ⟨isTrimmed_trim cs, exists_eq_append_trim cs⟩
  · rintro ⟨trimmed, before, after, blankBefore, blankAfter, rfl⟩
    rw [trim_append_left blankBefore, trim_append_right kept blankAfter, trimmed.trim_eq]

/-- What holds of trimmed texts alone holds of what trimming leaves when it holds of what there
    is apart from blanks around it. -/
theorem trim_iff_exists_around {P : List Char → Prop} (trimmed : ∀ kept, P kept → IsTrimmed kept)
    (cs : List Char) :
    P (trim cs) ↔ ∃ before kept after,
      Blank before ∧ Blank after ∧ cs = before ++ (kept ++ after) ∧ P kept := by
  constructor
  · intro holds
    obtain ⟨before, after, blankBefore, blankAfter, around⟩ := exists_eq_append_trim cs
    exact ⟨before, trim cs, after, blankBefore, blankAfter, around, holds⟩
  · rintro ⟨before, kept, after, blankBefore, blankAfter, around, holds⟩
    have left : trim cs = kept :=
      trim_eq_iff.mpr ⟨trimmed kept holds, before, after, blankBefore, blankAfter, around⟩
    rwa [left]

/-- A text without blanks begins and ends with none. -/
theorem isTrimmed_of_no_blank {cs : List Char} (clean : ∀ c ∈ cs, isBlank c = false) :
    IsTrimmed cs where
  first filled := clean _ (List.head_mem filled)
  last filled := clean _ (List.getLast_mem filled)

/-- A text without blanks is not trimmed. -/
theorem trim_of_no_blank {cs : List Char} (clean : ∀ c ∈ cs, isBlank c = false) :
    trim cs = cs :=
  (isTrimmed_of_no_blank clean).trim_eq

/-- Trimming keeps a first character that is not blank. -/
theorem trim_cons_of_not_blank {c : Char} (solid : isBlank c = false) (cs : List Char) :
    trim (c :: cs) = c :: trimEnd cs := by
  have start : (c :: cs).dropWhile isBlank = c :: cs := by simp [solid]
  rw [trim, start, trimEnd, trimEnd, List.reverse_cons, List.dropWhile_append]
  split
  · rename_i blank
    simp [solid, List.isEmpty_iff.mp blank]
  · simp

/-- Splitting goes by what the test says of the characters of the text and of no others. -/
theorem split_congr {p q : Char → Bool} {cs : List Char} (same : ∀ c ∈ cs, p c = q c) :
    split p cs = split q cs := by
  induction cs with
  | nil => rfl
  | cons c rest ih =>
    rw [split, split, same c List.mem_cons_self,
      ih fun d member => same d (List.mem_cons_of_mem c member)]

section Pieces

variable {isSeparator : Char → Bool} (solid : ∀ c, isBlank c = true → isSeparator c = false)

include solid

/-- Blanks in front of a text stand in front of its first piece. -/
theorem map_trim_split_append_left {before : List Char} (blank : Blank before) (cs : List Char) :
    (split isSeparator (before ++ cs)).map trim = (split isSeparator cs).map trim := by
  induction before with
  | nil => rfl
  | cons c before ih =>
    obtain ⟨here, later⟩ := List.forall_mem_cons.mp blank
    have single : Blank [c] := fun d member => List.mem_singleton.mp member ▸ here
    rw [List.cons_append, split, if_neg (by rw [solid c here]; decide), ← ih later]
    split
    · rename_i none
      rw [split_eq_splitOnP] at none
      exact absurd none (List.splitOnP_ne_nil _ _)
    · rename_i piece pieces shaped
      have same : trim (c :: piece) = trim piece := trim_append_left single piece
      rw [shaped, List.map_cons, List.map_cons, same]

/-- Blanks behind a text stand behind its last piece. -/
theorem map_trim_split_append_right (cs : List Char) {after : List Char} (blank : Blank after) :
    (split isSeparator (cs ++ after)).map trim = (split isSeparator cs).map trim := by
  -- With a part of a piece read already, since a piece is not trimmed before all of it is read.
  have reading (begun : List Char) :
      (List.splitOnPPrepend isSeparator (cs ++ after) begun).map trim =
        (List.splitOnPPrepend isSeparator cs begun).map trim := by
    induction cs generalizing begun with
    | nil =>
      have whole := List.splitOnP_eq_singleton fun c member => solid c (blank c member)
      rw [List.nil_append, List.splitOnPPrepend_eq_modifyHead, whole]
      simp [trim_append_right begun.reverse blank]
    | cons c cs ih =>
      rw [List.cons_append, List.splitOnPPrepend_cons_eq_if, List.splitOnPPrepend_cons_eq_if]
      split
      · rw [List.map_cons, List.map_cons, List.splitOnP_eq_splitOnPPrepend, ih,
          List.splitOnP_eq_splitOnPPrepend]
      · exact ih (c :: begun)
  rw [split_eq_splitOnP, split_eq_splitOnP]
  exact reading []

end Pieces

/-- Whatever stands in joined pieces stands in the separator or in one of the pieces. -/
theorem mem_of_mem_intercalate {separator : List Char} {pieces : List (List Char)} {c : Char}
    (member : c ∈ separator.intercalate pieces) : c ∈ separator ∨ ∃ piece ∈ pieces, c ∈ piece := by
  induction pieces with
  | nil => cases member
  | cons piece rest ih =>
    have widen : (c ∈ separator ∨ ∃ other ∈ rest, c ∈ other) →
        c ∈ separator ∨ ∃ other ∈ piece :: rest, c ∈ other :=
      Or.imp_right fun ⟨other, listed, found⟩ => ⟨other, List.mem_cons_of_mem piece listed, found⟩
    cases rest with
    | nil =>
      rw [List.intercalate_singleton] at member
      exact .inr ⟨piece, List.mem_cons_self, member⟩
    | cons next rest =>
      rw [List.intercalate_cons_cons, List.mem_append, List.mem_append] at member
      rcases member with (here | between) | later
      · exact .inr ⟨piece, List.mem_cons_self, here⟩
      · exact .inl between
      · exact widen (ih later)

end ItemLogic.Text
