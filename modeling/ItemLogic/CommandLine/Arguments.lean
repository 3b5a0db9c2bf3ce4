/-!
# Arguments

The arguments of a subcommand are options with a value, flags without one, and
positional arguments. An option's value is the next argument, which must not look
like an option itself, or follows an equals sign. No option and no flag is given
twice, and after two dashes everything is positional.
-/

namespace ItemLogic.CommandLine

/-- What a subcommand accepts: the names of its options and flags without their
    dashes, and the greatest number of positional arguments. -/
structure Accepted where
  options : List String
  flags : List String
  positional : Nat

/-- The arguments that were given. -/
structure Arguments where
  options : List (String × String) := []
  flags : List String := []
  positional : List String := []

namespace Arguments

/-- The value of an option. -/
def value? (given : Arguments) (name : String) : Option String := given.options.lookup name

/-- Whether a flag was given. -/
def has (given : Arguments) (name : String) : Bool := given.flags.contains name

/-- Whether an argument looks like an option: it begins with a dash and is not a
    dash alone. -/
def looksLikeOption (argument : String) : Bool :=
  match argument.toList with
  | '-' :: _ :: _ => true
  | _ => false

/-- The name and the attached value of an argument that begins with two dashes. -/
def splitOption (argument : String) : Option (String × Option String) :=
  match argument.toList with
  | '-' :: '-' :: letters =>
    let name := String.ofList (letters.takeWhile (· ≠ '='))
    match letters.dropWhile (· ≠ '=') with
    | _ :: value => some (name, some (String.ofList value))
    | [] => some (name, none)
  | _ => none

/-- The arguments with the value of one more option, unless it has one. -/
def withOption (given : Arguments) (name value : String) : Option Arguments :=
  if (given.value? name).isSome then none
  else some { given with options := given.options ++ [(name, value)] }

/-- The arguments with one more flag, unless it is there. -/
def withFlag (given : Arguments) (name : String) : Option Arguments :=
  if given.has name then none else some { given with flags := given.flags ++ [name] }

/-- Sorts arguments into options, flags and positional ones; nothing when one is
    not accepted or an option lacks its value. -/
def sort (accepted : Accepted) : Arguments → List String → Option Arguments
  | given, [] => some given
  | given, argument :: rest =>
    if argument == "--" then some { given with positional := given.positional ++ rest }
    else if !looksLikeOption argument then
      sort accepted { given with positional := given.positional ++ [argument] } rest
    else
      match splitOption argument with
      | none => none
      | some (name, attached) =>
        if accepted.options.contains name then
          match attached with
          | some value => (given.withOption name value).bind (sort accepted · rest)
          | none =>
            match rest with
            | [] => none
            | value :: rest =>
              if looksLikeOption value then none
              else (given.withOption name value).bind (sort accepted · rest)
        else if accepted.flags.contains name && attached.isNone then
          (given.withFlag name).bind (sort accepted · rest)
        else none

/-- The arguments that were given to a subcommand. -/
def ofList? (accepted : Accepted) (arguments : List String) : Option Arguments :=
  (sort accepted {} arguments).filter (·.positional.length ≤ accepted.positional)

end Arguments

end ItemLogic.CommandLine
