import ItemLogic.CommandLine.Command
import ItemLogic.Stored.Options
import ItemLogic.Stored.Placement
import ItemLogic.Stored.Save
import ItemLogic.Verdict
import ItemLogic.World.Build

/-!
# Running commands

A command prints texts, one to a line, until it is done or a fault stops it; what
was printed before a fault stays. The content of files comes in as a function, so
a run is a value.
-/

namespace ItemLogic.CommandLine

/-- The texts of files by their paths. -/
abbrev Files := String → Except FileFault String

/-- What a run leaves: the printed texts, and the fault that stopped it. -/
structure Outcome where
  printed : List String
  fault : Option Fault

/-- How a run ends. -/
inductive Ending
  /-- The arguments make no command. -/
  | badUsage
  | ran (outcome : Outcome)

/-- The exit code: zero for success, one for a fault, two for bad usage. -/
def Ending.exitCode : Ending → Nat
  | badUsage => 2
  | ran outcome => if outcome.fault.isSome then 1 else 0

/-- Prints one more text in front of an outcome. -/
def Outcome.after (texts : List String) (outcome : Outcome) : Outcome :=
  { outcome with printed := texts ++ outcome.printed }

/-- Goes on with a value, or stops at a fault with nothing more printed. -/
def Outcome.following {α : Type} (result : Except Fault α) (next : α → Outcome) : Outcome :=
  match result with
  | .ok value => next value
  | .error fault => ⟨[], some fault⟩

/-- A value read from a file. -/
def readStored {α : Type} (files : Files) (reader : String → Except Fault α) (path : String) :
    Except Fault α := do
  let text ← (files path).mapError .file
  reader text

namespace WorldArguments

/-- The options of a command: those of the file with switches turned on. -/
def options (world : WorldArguments) (files : Files) : Except Fault Options := do
  let stored ← match world.optionsFile with
    | some path => readStored files Options.ofJson path
    | none => .ok {}
  return stored.turnOn world.toggles

/-- The atlas of a command: the whole world with the placement applied, if there is one. -/
def atlas (world : WorldArguments) (files : Files) (placement : Option String) :
    Except Fault Atlas := do
  let options ← world.options files
  let unlocks := Unlocks.ofSeed world.seed options
  let catalog := Catalog.standard options unlocks
  let atlas ← World.build catalog unlocks options
  match placement with
  | some path =>
    let placement ← readStored files Placement.ofJson path
    placement.apply catalog atlas
  | none => .ok atlas

end WorldArguments

/-- A location below a heading. -/
def indented (l : Location) : String := "  " ++ l.text

/-- The waves, each under its number. -/
def waveLines (a : Atlas) : List String :=
  a.waves.zipIdx.flatMap fun (wave, i) =>
    ("Wave " ++ toString (i + 1) ++ ":") :: (wave.filterMap a.find?).map indented

/-- What `analyze` prints of an atlas before it looks at a save. -/
def analysisLines (a : Atlas) : List String :=
  waveLines a ++
    ["Placement is " ++ a.verdict.text, "Everything collected gives: " ++ (a.closure ∅).text]

/-- What `reachable` prints of an atlas. -/
def reachableLines (a : Atlas) (held : CapSet) : List String :=
  let reachable := a.reachable held
  ["Holding: " ++ held.text] ++ reachable.map indented ++
    [toString reachable.length ++ " of " ++ toString a.size ++ " locations reachable"]

/-- What `analyze` prints of the placement at the end. -/
def dumpLines (a : Atlas) (dump : Bool) : List String :=
  if dump then [(Placement.ofAtlas a).json] else []

/-- Runs a command; `rolled` is the new seed, should one be asked for. -/
def Command.run (files : Files) (rolled : Seed) : Command → Outcome
  | analyze world placement save dump =>
    .following (world.atlas files placement) fun a =>
      .after (analysisLines a) <|
        match save with
        | none => ⟨dumpLines a dump, none⟩
        | some path =>
          .following (readStored files Save.ofJson path) fun save =>
            let a := a.resume save
            ⟨("Save has access to: " ++ a.available.text) :: dumpLines a dump, none⟩
  | reachable world placement held expand =>
    .following (world.atlas files placement) fun a =>
      ⟨reachableLines a (if expand then a.closure held else held), none⟩
  | seed (some text) => .following (Seed.parse text) fun seed => ⟨[seed.text], none⟩
  | seed none => ⟨[rolled.text], none⟩

/-- Runs the command that arguments make. -/
def run (files : Files) (rolled : Seed) (arguments : List String) : Ending :=
  match Command.ofArguments? arguments with
  | some command => .ran (command.run files rolled)
  | none => .badUsage

end ItemLogic.CommandLine
