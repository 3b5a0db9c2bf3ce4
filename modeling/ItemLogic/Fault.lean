import ItemLogic.Key.Basic

/-!
# Faults

Everything that can go wrong with what a caller supplies, by cause, and the
sentence that reports each cause.
-/

namespace ItemLogic

/-- Why the content of a file is not to be had. -/
inductive FileFault
  /-- There is no file at the path. -/
  | missing
  /-- The bytes of the file are not UTF-8. -/
  | notText
  /-- The system gives another reason. -/
  | other (reason : String)

/-- The sentence that reports why a file is not to be had. -/
def FileFault.message : FileFault → String
  | .missing => "No such file or directory (os error 2)"
  | .notText => "stream did not contain valid UTF-8"
  | .other reason => reason

/-- Why a JSON text is refused: the first thing that is wrong with it, from left to right. -/
inductive JsonFault
  /-- The text breaks the grammar, or a value has the wrong form. -/
  | malformed
  /-- A string that stands for a key is no key. -/
  | badKey (text : String)
  deriving DecidableEq

/-- The causes of refusal. -/
inductive Fault
  /-- A location with this key is already there. -/
  | duplicateLocation (key : Key)
  /-- No location has this key, nor its room. -/
  | unknownLocation (key : Key)
  /-- The text is no key. -/
  | invalidKey (text : String)
  /-- The text names no capability. -/
  | unknownCapability (text : String)
  /-- The text is no seed. -/
  | invalidSeed (text : String)
  /-- A file could not be read. -/
  | file (cause : FileFault)
  /-- A JSON text could not be read. -/
  | json (cause : JsonFault)

/-- The report that a text is no key. -/
def invalidKeyMessage (text : String) : String := "invalid item key '" ++ text ++ "'"

/-- The sentence that reports a fault. Of a JSON text it says neither what breaks the grammar nor
    at what line and column the reader stops: a full report begins with the sentence and goes on
    with these. -/
def Fault.message : Fault → String
  | .duplicateLocation key => "duplicate item location " ++ key.text
  | .unknownLocation key => "no item location " ++ key.text
  | .invalidKey text => invalidKeyMessage text
  | .unknownCapability text => "unknown requirement '" ++ text ++ "'"
  | .invalidSeed text => "'" ++ text ++ "' is not a seed, expected a 32-bit hexadecimal number"
  | .file cause => "IO error: " ++ cause.message
  | .json .malformed => "JSON error"
  | .json (.badKey text) => "JSON error: " ++ invalidKeyMessage text

end ItemLogic
