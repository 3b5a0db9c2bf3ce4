/-!
# Options

The switches of a seed. They decide which locations exist, how gates are wired
and how keycards behave. Every switch has the name under which it is stored.
-/

namespace ItemLogic

/-- The switches of a seed, all off by default. -/
structure Options where
  /-- Start in the past; the present has to be unlocked instead. -/
  inverted : Bool := false
  gyreArchives : Bool := false
  downloadableItems : Bool := false
  cantoran : Bool := false
  loreChecks : Bool := false
  startWithTalaria : Bool := false
  /-- Secret rooms are seen only with the eye orb ring. -/
  requireEyeOrbRing : Bool := false
  /-- The gas of the Maw is lethal without the gas mask. -/
  gasMaw : Bool := false
  progressiveKeycards : Bool := false
  deriving DecidableEq

/-- The switches by themselves, in the order in which they are stored. -/
inductive Toggle
  | inverted
  | gyreArchives
  | downloadableItems
  | cantoran
  | loreChecks
  | startWithTalaria
  | requireEyeOrbRing
  | gasMaw
  | progressiveKeycards
  deriving DecidableEq

namespace Toggle

/-- Every switch, in the order in which they are stored. -/
def all : List Toggle :=
  [.inverted, .gyreArchives, .downloadableItems, .cantoran, .loreChecks, .startWithTalaria,
   .requireEyeOrbRing, .gasMaw, .progressiveKeycards]

/-- The name under which a switch is stored. -/
def name : Toggle → String
  | inverted => "inverted"
  | gyreArchives => "gyre_archives"
  | downloadableItems => "downloadable_items"
  | cantoran => "cantoran"
  | loreChecks => "lore_checks"
  | startWithTalaria => "start_with_talaria"
  | requireEyeOrbRing => "require_eye_orb_ring"
  | gasMaw => "gass_maw"
  | progressiveKeycards => "progressive_keycards"

/-- The switch stored under a name. -/
def named? (name : String) : Option Toggle := all.find? (·.name == name)

end Toggle

namespace Options

/-- Whether a switch is on. -/
def isOn (o : Options) : Toggle → Bool
  | .inverted => o.inverted
  | .gyreArchives => o.gyreArchives
  | .downloadableItems => o.downloadableItems
  | .cantoran => o.cantoran
  | .loreChecks => o.loreChecks
  | .startWithTalaria => o.startWithTalaria
  | .requireEyeOrbRing => o.requireEyeOrbRing
  | .gasMaw => o.gasMaw
  | .progressiveKeycards => o.progressiveKeycards

/-- The options with one switch set. -/
def set (o : Options) (toggle : Toggle) (value : Bool) : Options :=
  match toggle with
  | .inverted => { o with inverted := value }
  | .gyreArchives => { o with gyreArchives := value }
  | .downloadableItems => { o with downloadableItems := value }
  | .cantoran => { o with cantoran := value }
  | .loreChecks => { o with loreChecks := value }
  | .startWithTalaria => { o with startWithTalaria := value }
  | .requireEyeOrbRing => { o with requireEyeOrbRing := value }
  | .gasMaw => { o with gasMaw := value }
  | .progressiveKeycards => { o with progressiveKeycards := value }

/-- The options with some switches turned on. -/
def turnOn (o : Options) (toggles : List Toggle) : Options :=
  toggles.foldl (fun o toggle => o.set toggle true) o

end Options

end ItemLogic
