import ItemLogic.Verdict

/-!
# Notices

What a run reports about itself, apart from its answers. Notices are computed
from the same ascents and checks as the answers, so an answer needs no state to
be reported on.
-/

namespace ItemLogic

/-- How much a notice matters. -/
inductive NoticeLevel
  | debug
  | info
  | warn

/-- The word for a level. -/
def NoticeLevel.text : NoticeLevel → String
  | debug => "DEBUG"
  | info => "INFO"
  | warn => "WARN"

/-- Something worth a line. -/
inductive Notice
  /-- The world was built. -/
  | built (seed : Seed) (count : Nat) (inverted : Bool)
  /-- A round of a closure led from one held set to another. -/
  | step (number : Nat) (before after : CapSet)
  /-- A round opened a number of locations with progression. -/
  | wave (number count : Nat)
  /-- Exploration came to rest without the goal. -/
  | stuck (held : CapSet)
  /-- A room holds two copies of one item found in stages. -/
  | clash (clash : Atlas.Clash)
  | noGasMask
  /-- A placement with a number of entries was applied. -/
  | applied (count : Nat)
  | verdict (seed : Seed) (verdict : Verdict)

namespace Notice

/-- How much a notice matters: only a broken placement is a warning. -/
def level : Notice → NoticeLevel
  | built .. => .info
  | verdict _ .completable => .info
  | verdict _ _ => .warn
  | _ => .debug

/-- The sentence of a notice. -/
def text : Notice → String
  | built seed count inverted =>
    "[seed " ++ seed.text ++ "] built " ++ toString count ++ " item locations (inverted: " ++
      (if inverted then "true" else "false") ++ ")"
  | step number before after =>
    "step " ++ toString number ++ ": held " ++ before.text ++ " -> " ++ after.text
  | wave number count =>
    "wave " ++ toString number ++ ": " ++ toString count ++ " new progression locations"
  | stuck held => "stuck holding " ++ held.text
  | clash c => c.id.text ++ " placed at both " ++ c.earlier.text ++ " and " ++ c.later.text
  | noGasMask => "no location holds the gas mask"
  | applied count => "applied placement of " ++ toString count ++ " locations"
  | verdict seed v => "[seed " ++ seed.text ++ "] placement is " ++ v.text

/-- Level and sentence. -/
def line (n : Notice) : String := n.level.text ++ " " ++ n.text

end Notice

namespace Atlas

/-- The notice that the world of an atlas was built. -/
def builtNotice (a : Atlas) : Notice := .built a.unlocks.seed a.size a.options.inverted

/-- A notice for every round of a closure, the last one without change. -/
def closureNotices (a : Atlas) (initial : CapSet) : List Notice :=
  (ascent (a.step initial) initial).zipIdx.map fun (held, i) =>
    .step (i + 1) held (a.step initial held)

/-- A notice for every round of a fresh player, empty waves included. -/
def waveNotices (a : Atlas) : List Notice :=
  a.rounds.zipIdx.map fun (wave, i) => .wave (i + 1) wave.length

/-- The notices that lead up to a verdict, and the verdict's own. -/
def verdictNotices (a : Atlas) : List Notice :=
  let missing := if a.options.gasMaw || a.gasMask?.isSome then [] else [.noGasMask]
  let findings : List Notice :=
    match a.verdict with
    | .sharedRoom => a.clash?.toList.map .clash
    | .stuck => [.stuck (a.freshAscent.getLastD ∅)]
    | _ => []
  missing ++ findings ++ [.verdict a.unlocks.seed a.verdict]

end Atlas

end ItemLogic
