import ItemLogic.Capability.Text
import ItemLogic.CommandLine.Arguments
import ItemLogic.Options
import ItemLogic.Seed

/-!
# Commands

The subcommands: `analyze` checks a placement, `reachable` lists what opens to a
held set, and `seed` checks a seed or rolls one. Arguments that make no command
are bad usage, which is decided before any file is looked at.
-/

namespace ItemLogic.CommandLine

/-- Which world a command is about. -/
structure WorldArguments where
  seed : Seed
  /-- The file of the options. -/
  optionsFile : Option String
  /-- Switches turned on on top of the file. -/
  toggles : List Toggle
  deriving DecidableEq

/-- A command. -/
inductive Command
  /-- Waves, verdict and closure; what a save gives access to; the placement itself. -/
  | analyze (world : WorldArguments) (placement save : Option String) (dump : Bool)
  /-- The locations that open to a held set, or to all that it leads to. -/
  | reachable (world : WorldArguments) (placement : Option String) (held : CapSet) (expand : Bool)
  /-- The seed of a text, or a new one. -/
  | seed (text : Option String)

namespace Command

/-- The flag of a switch: its stored name with dashes. -/
def toggleFlag (toggle : Toggle) : String := toggle.name.map fun c => if c = '_' then '-' else c

/-- The flags of all switches. -/
def toggleFlags : List String := Toggle.all.map toggleFlag

/-- What `analyze` accepts. -/
def analyzeAccepts : Accepted where
  options := ["seed", "options", "placement", "save"]
  flags := "dump-placement" :: toggleFlags
  positional := 0

/-- What `reachable` accepts. -/
def reachableAccepts : Accepted where
  options := ["seed", "options", "placement", "held"]
  flags := "closure" :: toggleFlags
  positional := 0

/-- What `seed` accepts. -/
def seedAccepts : Accepted where
  options := []
  flags := []
  positional := 1

/-- The path that an option names, if it is given; an empty path is bad usage. -/
def path? (given : Arguments) (name : String) : Option (Option String) :=
  match given.value? name with
  | none => some none
  | some path => if path.isEmpty then none else some (some path)

/-- The seed that is given, or zero. -/
def seed? (given : Arguments) : Option Seed :=
  match given.value? "seed" with
  | none => some ⟨0⟩
  | some text => Seed.ofText? text

/-- The held set that is given, or none. -/
def held? (given : Arguments) : Option CapSet :=
  match given.value? "held" with
  | none => some ∅
  | some text => (CapSet.parse text).toOption

/-- The world that arguments name. -/
def world? (given : Arguments) : Option WorldArguments := do
  return {
    seed := ← seed? given
    optionsFile := ← path? given "options"
    toggles := Toggle.all.filter fun toggle => given.has (toggleFlag toggle) }

/-- The command that arguments make. -/
def ofArguments? : List String → Option Command
  | "analyze" :: rest => do
    let given ← Arguments.ofList? analyzeAccepts rest
    return .analyze (← world? given) (← path? given "placement") (← path? given "save")
      (given.has "dump-placement")
  | "reachable" :: rest => do
    let given ← Arguments.ofList? reachableAccepts rest
    return .reachable (← world? given) (← path? given "placement") (← held? given)
      (given.has "closure")
  | "seed" :: rest => do
    let given ← Arguments.ofList? seedAccepts rest
    return .seed given.positional.head?
  | _ => none

/-- The files that a command reads. -/
def paths : Command → List String
  | analyze world placement save _ =>
    world.optionsFile.toList ++ placement.toList ++ save.toList
  | reachable world placement _ _ => world.optionsFile.toList ++ placement.toList
  | seed _ => []

end Command

end ItemLogic.CommandLine
