import ItemLogic.Json.Reader

/-!
# Skipping JSON values

A value of no interest is read past. Its grammar is checked in full, but nothing
is built from it: numbers may have any size, escapes any code units, and nesting
any depth, since the open arrays and objects are kept on a stack.
-/

namespace ItemLogic.Json

/-- The rest of a string of no interest after its opening quote. -/
def skipStringRest : List Char → Except JsonFault (List Char)
  | [] => .error .malformed
  | first :: rest =>
    if first = '"' then .ok rest
    else if first = '\\' then
      match rest with
      | 'u' :: a :: b :: c :: d :: rest =>
        if (codeUnit? a b c d).isSome then skipStringRest rest else .error .malformed
      | letter :: rest =>
        if (escaped? letter).isSome then skipStringRest rest else .error .malformed
      | [] => .error .malformed
    else if first < ' ' then .error .malformed
    else skipStringRest rest

/-- One or more digits. -/
def skipDigits (cs : List Char) : Except JsonFault (List Char) :=
  if (cs.takeWhile Char.isDigit).isEmpty then .error .malformed
  else .ok (cs.dropWhile Char.isDigit)

/-- The digits in front of the point: a zero by itself, or digits that begin with no zero. -/
def skipWhole : List Char → Except JsonFault (List Char)
  | '0' :: rest => .ok rest
  | cs => skipDigits cs

/-- The point and the digits behind it, if there is a point. -/
def skipFraction : List Char → Except JsonFault (List Char)
  | '.' :: rest => skipDigits rest
  | cs => .ok cs

/-- The exponent, if there is one. -/
def skipExponent (cs : List Char) : Except JsonFault (List Char) :=
  match cs with
  | first :: rest =>
    if first = 'e' || first = 'E' then
      match rest with
      | sign :: digits => if sign = '+' || sign = '-' then skipDigits digits else skipDigits rest
      | [] => .error .malformed
    else .ok cs
  | [] => .ok cs

/-- A number. -/
def skipNumber (cs : List Char) : Except JsonFault (List Char) := do
  let unsigned := match cs with
    | '-' :: rest => rest
    | _ => cs
  let cs ← skipWhole unsigned
  let cs ← skipFraction cs
  skipExponent cs

/-- A value that has no parts. -/
def skipScalar (cs : List Char) : Except JsonFault (List Char) :=
  match cs with
  | '"' :: rest => skipStringRest rest
  | 't' :: _ => (literal ['t', 'r', 'u', 'e'] () cs).map (·.2)
  | 'f' :: _ => (literal ['f', 'a', 'l', 's', 'e'] () cs).map (·.2)
  | 'n' :: _ => (null cs).map (·.2)
  | _ => skipNumber cs

/-- The name of a field and the colon after it. -/
def skipName (cs : List Char) : Except JsonFault (List Char) :=
  match skipBlanks cs with
  | '"' :: rest => do
    let cs ← skipStringRest rest
    let (_, cs) ← symbol ':' cs
    return cs
  | _ => .error .malformed

/-- What an open bracket belongs to. -/
inductive Bracket
  | array
  | object

/-- Where skipping stands: the brackets that are open, innermost first, and the
    characters that are left. With open brackets a value comes next. -/
abbrev Skipping := List Bracket × List Char

/-- From the end of a value to the start of the next one within the open brackets,
    or to the end of the outermost value. -/
def closeBrackets : List Bracket → List Char → Except JsonFault Skipping
  | [], cs => .ok ([], cs)
  | .array :: outer, cs =>
    match skipBlanks cs with
    | ',' :: rest => .ok (.array :: outer, rest)
    | ']' :: rest => closeBrackets outer rest
    | _ => .error .malformed
  | .object :: outer, cs =>
    match skipBlanks cs with
    | ',' :: rest => (skipName rest).map fun cs => (.object :: outer, cs)
    | '}' :: rest => closeBrackets outer rest
    | _ => .error .malformed

/-- From the start of a value past it, or past its opening bracket. -/
def openValue (brackets : List Bracket) (cs : List Char) : Except JsonFault Skipping :=
  match skipBlanks cs with
  | '[' :: rest =>
    match skipBlanks rest with
    | ']' :: rest => closeBrackets brackets rest
    | _ => .ok (.array :: brackets, rest)
  | '{' :: rest =>
    match skipBlanks rest with
    | '}' :: rest => closeBrackets brackets rest
    | _ => (skipName rest).map fun cs => (.object :: brackets, cs)
  | cs => (skipScalar cs).bind (closeBrackets brackets)

/-- Skips values until no bracket is open. -/
def skipUntilClosed : Nat → List Bracket → List Char → Except JsonFault (List Char)
  | 0, _, _ => .error .malformed
  | fuel + 1, brackets, cs =>
    match openValue brackets cs with
    | .ok ([], rest) => .ok rest
    | .ok (bracket :: outer, rest) => skipUntilClosed fuel (bracket :: outer) rest
    | .error fault => .error fault

/-- Reads past a value. -/
def skipValue : Reader Unit := fun cs =>
  (skipUntilClosed (cs.length + 1) [] cs).map fun rest => ((), rest)

end ItemLogic.Json
