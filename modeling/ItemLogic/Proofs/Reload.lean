import ItemLogic.Proofs.Alike
import ItemLogic.Proofs.FilledWorld
import ItemLogic.Stored.Lemmas

/-!
# A dumped world reloads

The dump of a world names for each key the identity of what lies there. That is all that is
needed to fill a fresh world in the same way. Every key of the dump is the key of a location,
so each entry is placed exactly where it was taken from. Every item of the world came out of
the catalog, and the catalog gives for the identity of an item that it gives the item itself:
merged keycards are dumped under their common identity. The chains of the fresh world may
have been registered by other copies, but all copies of the catalog have the same stages.
The two worlds are therefore alike.
-/

namespace ItemLogic

/-- A location differs in its item alone from one that is the same when emptied. -/
theorem Location.filled_of_emptied {l m : Location} (same : m.emptied = l.emptied) :
    { m with item := l.item } = l := by
  cases m
  cases l
  cases same
  rfl

namespace Atlas

variable {a b : Atlas}

/-- Atlases that differ in what lies where have their locations at the same positions. -/
theorem exists_location_of_emptied (same : a.emptied = b.emptied) {i : Nat} {l : Location}
    (there : a.locations[i]? = some l) :
    ∃ m, b.locations[i]? = some m ∧ m.emptied = l.emptied := by
  have locations : a.locations.map Location.emptied = b.locations.map Location.emptied :=
    congrArg Atlas.locations same
  have here : (b.locations.map Location.emptied)[i]? = some l.emptied := by
    rw [← locations, List.getElem?_map, there]
    rfl
  rw [List.getElem?_map] at here
  exact Option.map_eq_some_iff.mp here

end Atlas

namespace Placement

variable {a w : Atlas}

/-- The dump of an atlas has an entry for each location and no other. -/
theorem mem_ofAtlas (coherent : a.Coherent) {entry : Key × Option ItemId} :
    entry ∈ (ofAtlas a).entries.entries ↔
      ∃ l ∈ a.locations, (l.key, l.item.map Item.id) = entry := by
  have keys : (a.locations.map fun l => (l.key, l.item.map Item.id)).map (·.1) = a.keys := by
    rw [List.map_map]
    rfl
  rw [← List.mem_map]
  exact KeyMap.mem_entries_ofList (keys ▸ coherent.nodup)

/-- The dump of an atlas writes to each position what lies there. -/
theorem writtenTo_ofAtlas (coherent : a.Coherent) (same : w.emptied = a.emptied) {i : Nat}
    {l : Location} (there : a.locations[i]? = some l) :
    writtenTo w (ofAtlas a).entries.entries i = some (l.item.map Item.id) := by
  have position (key : Key) : w.position? key = a.position? key :=
    Atlas.position?_of_emptied same key
  have listed : (l.key, l.item.map Item.id) ∈ (ofAtlas a).entries.entries :=
    (mem_ofAtlas coherent).mpr ⟨l, List.mem_of_getElem? there, rfl⟩
  refine writtenTo_of_agree listed ((position _).trans (coherent.position?_key there)) ?_
  intro entry member resolved
  obtain ⟨m, present, rfl⟩ := (mem_ofAtlas coherent).mp member
  obtain ⟨j, here⟩ := List.mem_iff_getElem?.mp present
  rw [position, coherent.position?_key here] at resolved
  cases Option.some.inj resolved
  cases Option.some.inj (there.symm.trans here)
  rfl

/-- The keys of a dump resolve wherever they resolve in the atlas that was dumped. -/
theorem unresolved?_ofAtlas (coherent : a.Coherent) (same : w.emptied = a.emptied) :
    (ofAtlas a).unresolved? w = none := by
  rw [unresolved?, List.find?_eq_none]
  intro key listed
  obtain ⟨entry, member, rfl⟩ := List.mem_map.mp listed
  obtain ⟨l, present, rfl⟩ := (mem_ofAtlas coherent).mp member
  obtain ⟨i, there⟩ := List.mem_iff_getElem?.mp present
  obtain ⟨m, here, _⟩ := Atlas.exists_location_of_emptied same.symm there
  rw [Atlas.find?, Atlas.position?_of_emptied same, coherent.position?_key there]
  simp [here]

/-- Where a catalog gives for the identity of each item the item, the dump of an atlas fills
    the same locations in the same way. -/
theorem locations_replay_ofAtlas {catalog : Catalog} (coherent : a.Coherent)
    (same : w.emptied = a.emptied)
    (stands : ∀ l ∈ a.locations, ∀ item, l.item = some item → catalog item.id = item) :
    (w.replay ((ofAtlas a).changes catalog)).locations = a.locations := by
  apply List.ext_getElem?
  intro i
  rw [changes, getElem?_replay_place]
  cases there : a.locations[i]? with
  | none =>
    have length : w.locations.length = a.locations.length := by
      simpa [Atlas.emptied] using congrArg (fun b => b.locations.length) same
    rw [List.getElem?_eq_none_iff] at there
    rw [List.getElem?_eq_none (length ▸ there)]
    rfl
  | some l =>
    obtain ⟨m, here, alike⟩ := Atlas.exists_location_of_emptied same.symm there
    have filled : (l.item.map Item.id).map catalog = l.item := by
      cases holds : l.item with
      | none => rfl
      | some item => exact congrArg some (stands l (List.mem_of_getElem? there) item holds)
    rw [writtenTo_ofAtlas coherent same there, here, Option.map_some, Location.rewritten, filled,
      Location.filled_of_emptied alike]

end Placement

/-- A command whose placement is read from a file works on the filled world. -/
theorem CommandLine.WorldArguments.atlas_eq_filled {world : WorldArguments} {files : Files}
    {path text : String} {o : Options} {q : Placement} (options : world.options files = .ok o)
    (file : files path = .ok text) (stored : Placement.ofJson text = .ok q) :
    world.atlas files (some path) = World.filled (.ofSeed world.seed o) o q := by
  have read : readStored files Placement.ofJson path = .ok q := by
    rw [readStored, file]
    exact stored
  -- Opening the binds by definition would evaluate the whole world.
  have next {α β : Type} (value : α) (rest : α → Except Fault β) :
      (Except.ok value >>= rest) = rest value := rfl
  simp only [atlas, World.filled, options, read, next]

/-- The dump of a world to which a placement was applied is read back and applies to a fresh
    world with the same options and unlocks. The reloaded world holds the same items in the
    same locations, and nothing that is asked about it has another answer: its waves, its
    verdict, what each held set obtains and what follows from each initial set. An analysis
    of the dump therefore prints what the analysis of the world prints. -/
theorem World.dump_reloads (unlocks : Unlocks) (o : Options) (p : Placement) {m : Atlas}
    (applied : filled unlocks o p = .ok m) :
    ∃ q reloaded, Placement.ofJson (Placement.ofAtlas m).json = .ok q ∧
      filled unlocks o q = .ok reloaded ∧
      reloaded.locations = m.locations ∧
      reloaded.waves = m.waves ∧
      reloaded.verdict = m.verdict ∧
      (∀ held, reloaded.obtained held = m.obtained held) ∧
      (∀ initial, reloaded.closure initial = m.closure initial) ∧
      ∀ (world : CommandLine.WorldArguments) (files : CommandLine.Files) (path : String)
        (rolled : Seed) (dump : Bool), world.options files = .ok o →
        Unlocks.ofSeed world.seed o = unlocks →
        files path = .ok (Placement.ofAtlas m).json →
        (CommandLine.Command.analyze world (some path) none dump).run files rolled =
          ⟨CommandLine.analysisLines m ++ CommandLine.dumpLines m dump, none⟩ := by
  obtain ⟨w, built, reached⟩ := exists_build_of_filled applied
  have coherent := coherent_of_filled applied
  have same : w.emptied = m.emptied := by rw [reached, Atlas.emptied_replay_changes]
  have reload : filled unlocks o (Placement.ofAtlas m) =
      .ok (w.replay ((Placement.ofAtlas m).changes (.standard o unlocks))) := by
    rw [filled, built]
    exact Placement.apply_of_resolved (Placement.unresolved?_ofAtlas coherent same) _
  have locations := Placement.locations_replay_ofAtlas coherent same
    fun l member item holds => standard_id_of_filled applied member holds
  have emptied : (w.replay ((Placement.ofAtlas m).changes (.standard o unlocks))).emptied =
      m.emptied := by rw [Atlas.emptied_replay_changes, same]
  -- The two may still differ in their chains, as other copies may have registered them.
  have alike := Atlas.alike_of_uniform (coherent_of_filled reload) (uniform_of_filled reload)
    coherent (uniform_of_filled applied) emptied locations
  have plays := alike.playsLike
  refine ⟨_, _, Placement.ofJson_json _, reload, locations, plays.waves, plays.verdict,
    congrFun plays.obtained, congrFun plays.closure, ?_⟩
  intro world files path rolled dump options seeded file
  have reads := CommandLine.WorldArguments.atlas_eq_filled options file (Placement.ofJson_json _)
  rw [seeded, reload] at reads
  rw [CommandLine.Command.run, reads, CommandLine.Outcome.following, CommandLine.Outcome.after,
    alike.analysisLines, CommandLine.dumpLines, CommandLine.dumpLines, Placement.ofAtlas, locations]
  rfl

/-- A placement that puts two of the keycards into other locations, one of them named by a
    spot in a room with one location, and empties a third. -/
def movedCards : Placement :=
  ⟨.ofList [(.spot 1 1 1528 144, some (.relic .scienceKeycardA)),
    (.spot 3 0 9 9, some (.relic .scienceKeycardB)), (.spot 1 9 600 162, none)]⟩

/-- Each key of the placement is a slot of the world, or lies in the room of one. -/
theorem movedCards_known : ∀ key ∈ movedCards.entries.keys,
    key ∈ World.keys { progressiveKeycards := true } ∨
      key.toRoom ∈ World.keys { progressiveKeycards := true } := by decide +kernel

/-- With the keycards merged, the dump of the world with those cards reloads. -/
theorem World.movedCards_reload :
    ∃ m q reloaded, filled ⟨⟨0⟩, ∅⟩ { progressiveKeycards := true } movedCards = .ok m ∧
      Placement.ofJson (Placement.ofAtlas m).json = .ok q ∧
      filled ⟨⟨0⟩, ∅⟩ { progressiveKeycards := true } q = .ok reloaded ∧
      reloaded.waves = m.waves ∧ reloaded.verdict = m.verdict := by
  obtain ⟨m, applied⟩ :=
    exists_filled ⟨⟨0⟩, ∅⟩ { progressiveKeycards := true } movedCards movedCards_known
  obtain ⟨q, reloaded, stored, filled, _, waves, verdict, _⟩ := dump_reloads _ _ _ applied
  exact ⟨m, q, reloaded, applied, stored, filled, waves, verdict⟩

end ItemLogic
