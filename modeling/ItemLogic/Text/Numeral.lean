/-!
# Numerals

Decimal integers with an optional sign, and hexadecimal numerals of either case.
Reading takes any number of leading zeros and decides on the unbounded value;
a width or a range is the caller's business.
-/

namespace ItemLogic.Text

/-- The value of a decimal digit. -/
def decimalDigit? (c : Char) : Option Nat :=
  if '0' ≤ c && c ≤ '9' then some (c.toNat - 48) else none

/-- The value of a hexadecimal digit of either case. -/
def hexDigit? (c : Char) : Option Nat :=
  if '0' ≤ c && c ≤ '9' then some (c.toNat - 48)
  else if 'a' ≤ c && c ≤ 'f' then some (c.toNat - 87)
  else if 'A' ≤ c && c ≤ 'F' then some (c.toNat - 55)
  else none

/-- The value of a run of digits continued from `value`; nothing when a
    character is no digit. -/
def digitsFrom? (digit? : Char → Option Nat) (base : Nat) : Nat → List Char → Option Nat
  | value, [] => some value
  | value, c :: cs =>
    match digit? c with
    | some d => digitsFrom? digit? base (base * value + d) cs
    | none => none

/-- The value of one or more decimal digits. -/
def natural? (cs : List Char) : Option Nat :=
  if cs = [] then none else digitsFrom? decimalDigit? 10 0 cs

/-- The value of one or more hexadecimal digits. -/
def hexadecimal? (cs : List Char) : Option Nat :=
  if cs = [] then none else digitsFrom? hexDigit? 16 0 cs

/-- The value of one or more decimal digits behind an optional sign. -/
def integer? : List Char → Option Int
  | '-' :: cs => (natural? cs).map fun n => -(n : Int)
  | '+' :: cs => (natural? cs).map fun n => (n : Int)
  | cs => (natural? cs).map fun n => (n : Int)

/-- The decimal digits of a natural number. -/
def ofNatural (n : Nat) : List Char := Nat.toDigits 10 n

/-- The decimal form of an integer, with a sign in front when it is negative. -/
def ofInteger : Int → List Char
  | .ofNat n => ofNatural n
  | .negSucc n => '-' :: ofNatural (n + 1)

/-- The digit for a value below sixteen, as a capital above nine. -/
def capitalHexDigit (n : Nat) : Char :=
  if n < 10 then Char.ofNat (48 + n) else Char.ofNat (55 + n)

/-- The last `width` hexadecimal digits of a number, padded with zeros. -/
def paddedHexadecimal : Nat → Nat → List Char
  | 0, _ => []
  | width + 1, n => paddedHexadecimal width (n / 16) ++ [capitalHexDigit (n % 16)]

end ItemLogic.Text
