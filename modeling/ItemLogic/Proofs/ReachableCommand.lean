import ItemLogic.CommandLine.Run
import ItemLogic.Proofs.Closure
import ItemLogic.Proofs.Reload
import ItemLogic.Proofs.SetText

/-!
# Asking again with what was printed

The command `reachable` prints the set that it works with and the locations that open to
it. With the closure it works with all that the held set leads to, so it lists at least
the locations of the plain run, in the same order. The printed set is a text that can be
given back: it reads as the closure, which closing leaves as it is, so the command says
the same a second time, whether it is asked for the closure or not.

The arguments that name a world are sorted in the same way behind others that do not
touch their names. What stands in front of them is `Arguments.above`.
-/

namespace ItemLogic.CommandLine

namespace Arguments

variable {accepted wider : Accepted} {extra given own : Arguments} {rest : List String}

/-- Arguments with others in front. -/
def above (extra given : Arguments) : Arguments where
  options := extra.options ++ given.options
  flags := extra.flags ++ given.flags
  positional := extra.positional ++ given.positional

/-- What a subcommand accepts is accepted with the same meaning by a wider one, and
    arguments in front do not take the place of any of it. -/
structure LeavesRoom (accepted wider : Accepted) (extra : Arguments) : Prop where
  options : ∀ name ∈ accepted.options, name ∈ wider.options ∧ extra.value? name = none
  flags : ∀ name ∈ accepted.flags, name ∈ wider.flags ∧ extra.has name = false
  /-- No flag is an option of the wider subcommand. -/
  plain : ∀ name ∈ accepted.flags, name ∉ wider.options

/-- The value of an option is looked for in front first. -/
theorem value?_above (name : String) :
    (extra.above given).value? name = (extra.value? name).or (given.value? name) :=
  List.lookup_append

/-- A flag that is given in either part is given. -/
theorem has_above (name : String) :
    (extra.above given).has name = (extra.has name || given.has name) := by
  simp [has, above]

/-- A value is taken for an option that has none yet, and joins the others. -/
theorem of_withOption {name value : String} (taken : given.withOption name value = some own) :
    given.value? name = none ∧ own = { given with options := given.options ++ [(name, value)] } := by
  rw [withOption] at taken
  split at taken
  · cases taken
  · rename_i new
    cases taken
    exact ⟨Option.not_isSome_iff_eq_none.mp new, rfl⟩

/-- A flag is taken once, and joins the others. -/
theorem of_withFlag {name : String} (taken : given.withFlag name = some own) :
    given.has name = false ∧ own = { given with flags := given.flags ++ [name] } := by
  rw [withFlag] at taken
  split at taken
  · cases taken
  · rename_i new
    cases taken
    exact ⟨Bool.eq_false_iff.mpr new, rfl⟩

/-- An option that is not given in front is taken behind as it is taken alone. -/
theorem withOption_above {name value : String} (absent : extra.value? name = none)
    (taken : given.withOption name value = some own) :
    (extra.above given).withOption name value = some (extra.above own) := by
  obtain ⟨new, rfl⟩ := of_withOption taken
  rw [withOption, value?_above, absent, new]
  simp [above]

/-- So is a flag that is not given in front. -/
theorem withFlag_above {name : String} (absent : extra.has name = false)
    (taken : given.withFlag name = some own) :
    (extra.above given).withFlag name = some (extra.above own) := by
  obtain ⟨new, rfl⟩ := of_withFlag taken
  rw [withFlag, has_above, absent, new]
  simp [above]

/-- A positional argument joins those in front as it joins the others. -/
theorem above_positional (more : List String) :
    extra.above { given with positional := given.positional ++ more } =
      { extra.above given with positional := (extra.above given).positional ++ more } := by
  simp [above]

section OneArgument

variable {argument name value : String}

/-- An option takes the value that is attached to it. -/
theorem sort_attached (other : ¬(argument == "--") = true)
    (marked : ¬(!looksLikeOption argument) = true)
    (named : splitOption argument = some (name, some value)) (known : name ∈ accepted.options) :
    sort accepted given (argument :: rest) =
      (given.withOption name value).bind (sort accepted · rest) := by
  rw [sort, if_neg other, if_neg marked, named]
  simp [known]

/-- An option without a value attached takes the next argument. -/
theorem sort_separate (other : ¬(argument == "--") = true)
    (marked : ¬(!looksLikeOption argument) = true)
    (named : splitOption argument = some (name, none)) (known : name ∈ accepted.options)
    (plain : ¬looksLikeOption value = true) :
    sort accepted given (argument :: value :: rest) =
      (given.withOption name value).bind (sort accepted · rest) := by
  rw [sort, if_neg other, if_neg marked, named]
  simp [known, plain]

/-- A flag is taken by itself and leaves the next argument alone. -/
theorem sort_flag (other : ¬(argument == "--") = true)
    (marked : ¬(!looksLikeOption argument) = true)
    (named : splitOption argument = some (name, none)) (unvalued : name ∉ accepted.options)
    (known : name ∈ accepted.flags) :
    sort accepted given (argument :: rest) =
      (given.withFlag name).bind (sort accepted · rest) := by
  rw [sort, if_neg other, if_neg marked, named]
  simp [unvalued, known]

end OneArgument

/-- Arguments are sorted behind others as they are sorted alone. -/
theorem sort_above (room : LeavesRoom accepted wider extra)
    (sorted : sort accepted given rest = some own) :
    sort wider (extra.above given) rest = some (extra.above own) := by
  -- The induction follows the run that succeeds, so only the branches that take the next
  -- argument are left: each takes it in the wider run as well.
  fun_induction sort accepted given rest with
  | case1 given =>
    cases sorted
    rw [sort]
  | case2 given argument rest dashes =>
    cases sorted
    rw [sort, if_pos dashes, above_positional]
  | case3 given argument rest other plain ih =>
    rw [sort, if_neg other, if_pos plain, ← above_positional]
    exact ih sorted
  | case5 given argument rest other marked name known value named ih =>
    obtain ⟨next, taken, later⟩ := Option.bind_eq_some_iff.mp sorted
    obtain ⟨wide, free⟩ := room.options name (List.contains_iff_mem.mp known)
    rw [sort_attached other marked named wide, withOption_above free taken]
    exact ih next later
  | case8 given argument other marked name known value rest plain named ih =>
    obtain ⟨next, taken, later⟩ := Option.bind_eq_some_iff.mp sorted
    obtain ⟨wide, free⟩ := room.options name (List.contains_iff_mem.mp known)
    rw [sort_separate other marked named wide plain, withOption_above free taken]
    exact ih next later
  | case9 given argument rest other marked name attached named unvalued known ih =>
    obtain ⟨next, taken, later⟩ := Option.bind_eq_some_iff.mp sorted
    obtain ⟨known, alone⟩ := Bool.and_eq_true_iff.mp known
    rw [Option.isNone_iff_eq_none.mp alone] at named
    have member := List.contains_iff_mem.mp known
    obtain ⟨wide, free⟩ := room.flags name member
    rw [sort_flag other marked named (room.plain name member) wide, withFlag_above free taken]
    exact ih next later
  | case4 | case6 | case7 | case10 => cases sorted

/-- Sorting collects no flag but those that are accepted. -/
theorem flags_of_sort (sorted : sort accepted given rest = some own)
    (within : given.flags ⊆ accepted.flags) : own.flags ⊆ accepted.flags := by
  fun_induction sort accepted given rest with
  | case1 given =>
    cases sorted
    exact within
  | case2 given argument rest dashes =>
    cases sorted
    exact within
  | case3 given argument rest other plain ih => exact ih sorted within
  | case5 given argument rest other marked name known value named ih =>
    obtain ⟨next, taken, later⟩ := Option.bind_eq_some_iff.mp sorted
    obtain ⟨-, rfl⟩ := of_withOption taken
    exact ih _ later within
  | case8 given argument other marked name known value rest plain named ih =>
    obtain ⟨next, taken, later⟩ := Option.bind_eq_some_iff.mp sorted
    obtain ⟨-, rfl⟩ := of_withOption taken
    exact ih _ later within
  | case9 given argument rest other marked name attached named unvalued known ih =>
    obtain ⟨next, taken, later⟩ := Option.bind_eq_some_iff.mp sorted
    obtain ⟨-, rfl⟩ := of_withFlag taken
    have member := List.contains_iff_mem.mp (Bool.and_eq_true_iff.mp known).1
    exact ih _ later (List.append_subset.mpr ⟨within, by simpa using member⟩)
  | case4 | case6 | case7 | case10 => cases sorted

end Arguments

/-! ### Arguments that name a world -/

/-- What names a world and a placement in any command. -/
def worldAccepts : Accepted where
  options := ["seed", "options", "placement"]
  flags := Command.toggleFlags
  positional := 0

namespace Command

/-- The world and the placement that arguments name. -/
def ofWorld? (given : List String) : Option (WorldArguments × Option String) := do
  let given ← Arguments.ofList? worldAccepts given
  return (← world? given, ← path? given "placement")

variable {wider : Accepted} {extra given : Arguments}

/-- The same file is named behind arguments that do not name one for the option. -/
theorem path?_above {name : String} (absent : extra.value? name = none) :
    path? (extra.above given) name = path? given name := by
  rw [path?, Arguments.value?_above, absent, Option.none_or, path?]

/-- The same world is named behind arguments that leave room for it. -/
theorem world?_above (room : Arguments.LeavesRoom worldAccepts wider extra) :
    world? (extra.above given) = world? given := by
  have seed : seed? (extra.above given) = seed? given := by
    rw [seed?, Arguments.value?_above, (room.options "seed" (by decide)).2, Option.none_or, seed?]
  have switches (toggle : Toggle) :
      (extra.above given).has (toggleFlag toggle) = given.has (toggleFlag toggle) := by
    have known : toggleFlag toggle ∈ worldAccepts.flags :=
      List.mem_map_of_mem (by cases toggle <;> decide)
    rw [Arguments.has_above, (room.flags _ known).2, Bool.false_or]
  simp only [world?, seed, path?_above (room.options "options" (by decide)).2, switches]

/-! ### Asking what is reachable -/

/-- The arguments of `reachable` for the text of a held set, with the closure or without,
    in front of those that name the world. -/
def reachableArguments (held : String) (expand : Bool) (given : List String) : List String :=
  "reachable" :: "--held" :: held :: ((if expand then ["--closure"] else []) ++ given)

/-- The arguments in front of those that name the world, sorted. -/
def leading (held : String) (expand : Bool) : Arguments where
  options := [("held", held)]
  flags := if expand then ["closure"] else []

/-- The held set and the closure leave room for the arguments that name a world. -/
theorem leaves_room (held : String) (expand : Bool) :
    Arguments.LeavesRoom worldAccepts reachableAccepts (leading held expand) where
  options name known := by
    have other : name ≠ "held" := by
      rintro rfl
      exact absurd known (by decide)
    have wide : ∀ name ∈ worldAccepts.options, name ∈ reachableAccepts.options := by decide
    refine ⟨wide name known, ?_⟩
    simp [Arguments.value?, leading, other]
  flags name known := by
    have other : name ≠ "closure" := by
      rintro rfl
      exact absurd known (by decide +kernel)
    refine ⟨List.mem_cons_of_mem _ known, ?_⟩
    cases expand <;> simp [Arguments.has, leading, other]
  plain := by decide +kernel

/-- The text of a held set and the closure are sorted before what names the world. -/
theorem sort_leading {held : String} (plain : Arguments.looksLikeOption held = false)
    (expand : Bool) (given : List String) :
    Arguments.sort reachableAccepts {}
        ("--held" :: held :: ((if expand then ["--closure"] else []) ++ given)) =
      Arguments.sort reachableAccepts ((leading held expand).above {}) given := by
  have option : Arguments.splitOption "--held" = some ("held", none) := by decide
  have flag : Arguments.splitOption "--closure" = some ("closure", none) := by decide
  have held : ({} : Arguments).withOption "held" held = some ((leading held false).above {}) := rfl
  rw [Arguments.sort_separate (by decide) (by decide) option (by decide)
    (Bool.eq_false_iff.mp plain), held, Option.bind_some]
  cases expand with
  | false => rw [if_neg Bool.false_ne_true, List.nil_append]
  | true =>
    rw [if_pos rfl, List.singleton_append,
      Arguments.sort_flag (by decide) (by decide) flag (by decide) (by decide)]
    rfl

/-- The arguments make the command that they describe. -/
theorem ofArguments?_reachableArguments {given : List String} {text : String} {held : CapSet}
    {world : WorldArguments} {placement : Option String}
    (named : ofWorld? given = some (world, placement)) (reads : CapSet.parse text = .ok held)
    (expand : Bool) :
    ofArguments? (reachableArguments text expand given) =
      some (.reachable world placement held expand) := by
  obtain ⟨own, taken, named⟩ := Option.bind_eq_some_iff.mp named
  obtain ⟨about, isWorld, named⟩ := Option.bind_eq_some_iff.mp named
  obtain ⟨path, isPath, named⟩ := Option.bind_eq_some_iff.mp named
  cases named
  obtain ⟨sorted, few⟩ := Option.filter_eq_some_iff.mp taken
  have room := leaves_room text expand
  have whole : Arguments.ofList? reachableAccepts
      ("--held" :: text :: ((if expand then ["--closure"] else []) ++ given)) =
        some ((leading text expand).above own) := by
    rw [Arguments.ofList?, sort_leading (CapSet.looksLikeOption_of_parse reads),
      Arguments.sort_above room sorted]
    exact Option.filter_eq_some_iff.mpr ⟨rfl, few⟩
  have isHeld : held? ((leading text expand).above own) = some held := by
    have there : (leading text expand).value? "held" = some text := rfl
    simp [held?, Arguments.value?_above, there, reads, Except.toOption]
  have samePath : path? ((leading text expand).above own) "placement" = path? own "placement" :=
    path?_above (room.options "placement" (by decide)).2
  have expands : ((leading text expand).above own).has "closure" = expand := by
    have unflagged : own.has "closure" = false := by
      have within := Arguments.flags_of_sort sorted (List.nil_subset _)
      rw [Arguments.has, Bool.eq_false_iff, ne_eq, List.contains_iff_mem]
      exact fun listed => absurd (within listed) (by decide +kernel)
    rw [Arguments.has_above, unflagged, Bool.or_false]
    cases expand <;> rfl
  simp [ofArguments?, reachableArguments, whole, world?_above room, isWorld, samePath, isPath,
    isHeld, expands]

end Command

/-! ### Asking again -/

/-- What `reachable` ends with for the text of a held set, with the closure or without,
    about the world that arguments name. -/
def listing (files : Files) (rolled : Seed) (given : List String) (text : String)
    (expand : Bool) : Ending :=
  run files rolled (Command.reachableArguments text expand given)

/-- The texts that a command prints. -/
def Ending.printed : Ending → List String
  | badUsage => []
  | ran outcome => outcome.printed

/-- What stands between the heading and the count. -/
def locationLines (printed : List String) : List String := printed.tail.dropLast

/-- Between the heading and the count there is a line for every location that opens. -/
theorem locationLines_reachableLines (a : Atlas) (held : CapSet) :
    locationLines (reachableLines a held) = (a.reachable held).map indented := by
  simp [locationLines, reachableLines]

section Listing

variable (files : Files) (rolled : Seed) {given : List String} {world : WorldArguments}
  {placement : Option String} {a : Atlas} {text : String} {held : CapSet}

/-- For arguments that name a world, a placement that applies and a text of a set, `reachable`
    prints the lines of the set, or of its closure, and no fault. -/
theorem listing_eq (named : Command.ofWorld? given = some (world, placement))
    (applies : world.atlas files placement = .ok a) (reads : CapSet.parse text = .ok held)
    (expand : Bool) :
    listing files rolled given text expand =
      .ran ⟨reachableLines a (if expand then a.closure held else held), none⟩ := by
  rw [listing, run, Command.ofArguments?_reachableArguments named reads]
  dsimp only
  rw [Command.run, applies, Outcome.following]

/-- Whatever world is named, whatever placement applies to it and whatever is held, `reachable`
    lists the locations that open to the held set, and with the closure those that open to all
    that it leads to: the lines of the first run stand in order among those of the second. What
    the second prints behind `Holding: ` can be held in its turn, and then the command says
    the same, with the closure and without. -/
theorem printed_closure_repeats (named : Command.ofWorld? given = some (world, placement))
    (applies : world.atlas files placement = .ok a) (reads : CapSet.parse text = .ok held) :
    listing files rolled given text false = .ran ⟨reachableLines a held, none⟩ ∧
      listing files rolled given text true = .ran ⟨reachableLines a (a.closure held), none⟩ ∧
      (locationLines (listing files rolled given text false).printed).Sublist
        (locationLines (listing files rolled given text true).printed) ∧
      ∀ printed, (listing files rolled given text true).printed.head? =
          some ("Holding: " ++ printed) →
        ∀ expand, listing files rolled given printed expand =
          listing files rolled given text true := by
  have plain := listing_eq files rolled named applies reads false
  have closed := listing_eq files rolled named applies reads true
  rw [if_neg Bool.false_ne_true] at plain
  rw [if_pos rfl] at closed
  rw [plain, closed]
  refine ⟨rfl, rfl, ?_, ?_⟩
  · simp only [Ending.printed, locationLines_reachableLines]
    exact (a.reachable_sublist (a.closure_closedAbove held).holds).map indented
  · intro printed heading expand
    have same : printed = (a.closure held).text := by
      have lines := Option.some.inj heading
      exact (String.append_right_inj _).mp lines.symm
    have again : CapSet.parse printed = .ok (a.closure held) := same ▸ CapSet.parse_text _
    -- Held again, the closure is worked with as it is or closed once more: the same set.
    rw [listing_eq files rolled named applies again, a.closure_closure, ite_self]

/-- With a placement from a file and a switch turned on, two names in small letters are held,
    and what the closure run prints is held in their place. -/
theorem movedCards_listed_again :
    ∃ printed, (listing (fun _ => .ok movedCards.json) ⟨0⟩
          ["--placement", "cards.json", "--progressive-keycards"] "ts, dj" true).printed.head? =
        some ("Holding: " ++ printed) ∧
      ∀ expand, listing (fun _ => .ok movedCards.json) ⟨0⟩
          ["--placement", "cards.json", "--progressive-keycards"] printed expand =
        listing (fun _ => .ok movedCards.json) ⟨0⟩
          ["--placement", "cards.json", "--progressive-keycards"] "ts, dj" true := by
  obtain ⟨m, applied⟩ := World.exists_filled (.ofSeed ⟨0⟩ { progressiveKeycards := true })
    { progressiveKeycards := true } movedCards movedCards_known
  have named : Command.ofWorld? ["--placement", "cards.json", "--progressive-keycards"] =
      some (⟨⟨0⟩, none, [.progressiveKeycards]⟩, some "cards.json") := by decide +kernel
  have applies : (⟨⟨0⟩, none, [.progressiveKeycards]⟩ : WorldArguments).atlas
      (fun _ => .ok movedCards.json) (some "cards.json") = .ok m := by
    rw [← applied]
    exact WorldArguments.atlas_eq_filled rfl rfl (Placement.ofJson_json movedCards)
  have reads : CapSet.parse "ts, dj" = .ok {.timeStop, .doubleJump} := rfl
  obtain ⟨-, closed, -, again⟩ := printed_closure_repeats _ ⟨0⟩ named applies reads
  have heading : (listing (fun _ => .ok movedCards.json) ⟨0⟩
        ["--placement", "cards.json", "--progressive-keycards"] "ts, dj" true).printed.head? =
      some ("Holding: " ++ (m.closure {.timeStop, .doubleJump}).text) := by
    rw [closed]
    rfl
  exact ⟨_, heading, again _ heading⟩

end Listing

end ItemLogic.CommandLine
