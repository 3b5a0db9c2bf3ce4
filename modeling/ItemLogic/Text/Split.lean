/-!
# Trimming and splitting text

Blank characters are those with the Unicode property `White_Space`; zero-width
spaces and the byte order mark are not among them. Splitting keeps empty pieces,
so a text with `n` separators has `n + 1` pieces.
-/

namespace ItemLogic.Text

/-- The property `White_Space`: the ASCII blanks, next line, no-break space, and
    the spaces and separators of the general punctuation and ideographic blocks. -/
def isBlank (c : Char) : Bool :=
  let n := c.toNat
  (0x09 ≤ n && n ≤ 0x0D) || n == 0x20 || n == 0x85 || n == 0xA0 || n == 0x1680 ||
    (0x2000 ≤ n && n ≤ 0x200A) || n == 0x2028 || n == 0x2029 || n == 0x202F ||
    n == 0x205F || n == 0x3000

/-- Removes blanks at the end. -/
def trimEnd (cs : List Char) : List Char := (cs.reverse.dropWhile isBlank).reverse

/-- Removes blanks at both ends. -/
def trim (cs : List Char) : List Char := trimEnd (cs.dropWhile isBlank)

/-- The pieces between separators, in order, empty pieces included. -/
def split (isSeparator : Char → Bool) : List Char → List (List Char)
  | [] => [[]]
  | c :: cs =>
    if isSeparator c then [] :: split isSeparator cs
    else match split isSeparator cs with
      | [] => [[c]]
      | piece :: pieces => (c :: piece) :: pieces

/-- Equality that ignores the case of ASCII letters and of no others. -/
def sameLetters (a b : List Char) : Bool := a.map Char.toLower == b.map Char.toLower

/-- Splitting is the library's, so its laws are the library's too. -/
theorem split_eq_splitOnP (isSeparator : Char → Bool) (cs : List Char) :
    split isSeparator cs = cs.splitOnP isSeparator := by
  induction cs with
  | nil => rfl
  | cons c cs ih =>
    rw [split, ih, List.splitOnP_cons_eq_if_modifyHead]
    congr 1
    cases pieces : cs.splitOnP isSeparator with
    | nil => exact absurd pieces (List.splitOnP_ne_nil isSeparator cs)
    | cons piece rest => rfl

end ItemLogic.Text
