import ItemLogic.Fault
import ItemLogic.Text.Numeral

/-!
# Reading JSON

A reader takes the characters that are left and gives a value and the characters
after it, or the first fault from left to right. Only the forms that the files of
this library use are read into values here: strings, literals, objects and
arrays whose fields and elements are given readers of their own.
-/

namespace ItemLogic.Json

/-- A value and the characters after it, or the first fault. -/
abbrev Reader (α : Type) := List Char → Except JsonFault (α × List Char)

/-- Space, tab, line feed and carriage return. -/
def isBlank (c : Char) : Bool := c == ' ' || c == '\t' || c == '\n' || c == '\r'

/-- The text from its first character that is not blank. -/
def skipBlanks (cs : List Char) : List Char := cs.dropWhile isBlank

/-- The number of four hexadecimal digits. -/
def codeUnit? (a b c d : Char) : Option Nat := Text.hexadecimal? [a, b, c, d]

/-- A code unit that begins a pair. -/
def isHighSurrogate (n : Nat) : Bool := 0xD800 ≤ n && n < 0xDC00

/-- A code unit that ends a pair. -/
def isLowSurrogate (n : Nat) : Bool := 0xDC00 ≤ n && n < 0xE000

/-- The character of a pair of code units. -/
def ofSurrogates (high low : Nat) : Char :=
  Char.ofNat (0x10000 + (high - 0xD800) * 0x400 + (low - 0xDC00))

/-- The character that a one-letter escape stands for. -/
def escaped? : Char → Option Char
  | '"' => some '"'
  | '\\' => some '\\'
  | '/' => some '/'
  | 'b' => some '\x08'
  | 'f' => some '\x0c'
  | 'n' => some '\n'
  | 'r' => some '\r'
  | 't' => some '\t'
  | _ => none

/-- Puts a character in front of the string that was read. -/
def consChar (c : Char) : Except JsonFault (List Char × List Char) →
    Except JsonFault (List Char × List Char)
  | .ok (cs, rest) => .ok (c :: cs, rest)
  | .error fault => .error fault

/-- The rest of a string after its opening quote. Control characters have to be
    escaped, and escaped surrogates have to come in pairs. -/
def stringRest : Reader (List Char)
  | [] => .error .malformed
  | first :: rest =>
    if first = '"' then .ok ([], rest)
    else if first = '\\' then
      match rest with
      | 'u' :: a :: b :: c :: d :: rest =>
        match codeUnit? a b c d with
        | none => .error .malformed
        | some unit =>
          if isHighSurrogate unit then
            match rest with
            | '\\' :: 'u' :: e :: f :: g :: h :: rest =>
              match codeUnit? e f g h with
              | none => .error .malformed
              | some low =>
                if isLowSurrogate low then consChar (ofSurrogates unit low) (stringRest rest)
                else .error .malformed
            | _ => .error .malformed
          else if isLowSurrogate unit then .error .malformed
          else consChar (Char.ofNat unit) (stringRest rest)
      | letter :: rest =>
        match escaped? letter with
        | none => .error .malformed
        | some c => consChar c (stringRest rest)
      | [] => .error .malformed
    else if first < ' ' then .error .malformed
    else consChar first (stringRest rest)

/-- A string. -/
def string : Reader String := fun cs =>
  match skipBlanks cs with
  | '"' :: rest => (stringRest rest).map fun (content, rest) => (String.ofList content, rest)
  | _ => .error .malformed

/-- The characters of a literal, which stand for a value. -/
def literal {α : Type} (letters : List Char) (value : α) : Reader α := fun cs =>
  let cs := skipBlanks cs
  if letters.isPrefixOf cs then .ok (value, cs.drop letters.length) else .error .malformed

/-- `null`. -/
def null : Reader Unit := literal ['n', 'u', 'l', 'l'] ()

/-- `true` or `false`. -/
def bool : Reader Bool := fun cs =>
  match literal ['t', 'r', 'u', 'e'] true cs with
  | .ok result => .ok result
  | .error _ => literal ['f', 'a', 'l', 's', 'e'] false cs

/-- A single character between values. -/
def symbol (c : Char) : Reader Unit := fun cs =>
  match skipBlanks cs with
  | first :: rest => if first = c then .ok ((), rest) else .error .malformed
  | [] => .error .malformed

variable {σ : Type}

/-- The fields of an object from the name of one of them on. A field is given what
    has been read so far and the name, and answers with the reader of its value; it
    may refuse the name before anything after it is looked at. -/
def fieldsFrom (field : σ → String → Except JsonFault (Reader σ)) : Nat → σ → Reader σ
  | 0, _, _ => .error .malformed
  | fuel + 1, state, cs => do
    let (name, cs) ← string cs
    let value ← field state name
    let (_, cs) ← symbol ':' cs
    let (state, cs) ← value cs
    match skipBlanks cs with
    | ',' :: cs => fieldsFrom field fuel state cs
    | '}' :: cs => .ok (state, cs)
    | _ => .error .malformed

/-- An object, read field by field. -/
def object (field : σ → String → Except JsonFault (Reader σ)) (state : σ) : Reader σ := fun cs => do
  let (_, cs) ← symbol '{' cs
  match skipBlanks cs with
  | '}' :: cs => .ok (state, cs)
  | _ => fieldsFrom field cs.length state cs

/-- The elements of an array from one of them on. -/
def elementsFrom (element : σ → Reader σ) : Nat → σ → Reader σ
  | 0, _, _ => .error .malformed
  | fuel + 1, state, cs => do
    let (state, cs) ← element state cs
    match skipBlanks cs with
    | ',' :: cs => elementsFrom element fuel state cs
    | ']' :: cs => .ok (state, cs)
    | _ => .error .malformed

/-- An array, read element by element. -/
def array (element : σ → Reader σ) (state : σ) : Reader σ := fun cs => do
  let (_, cs) ← symbol '[' cs
  match skipBlanks cs with
  | ']' :: cs => .ok (state, cs)
  | _ => elementsFrom element cs.length state cs

/-- A whole text: one value with nothing but blanks after it. -/
def document {α : Type} (reader : Reader α) (text : String) : Except JsonFault α := do
  let (value, cs) ← reader text.toList
  if skipBlanks cs = [] then .ok value else .error .malformed

end ItemLogic.Json
