import ItemLogic.Placement
import ItemLogic.Proofs.Coherence

/-!
# What placing changes

Placing puts an item into one location, and registers its chain if it is found in stages.
Keys, gates, marks and the index stay, so a key resolves to the same position whatever has
been placed before. A placement whose keys all resolve is therefore applied to its end: it is
the history of its entries, none of which is refused on the way.
-/

namespace ItemLogic

/-- The location with nothing in it. -/
def Location.emptied (l : Location) : Location := { l with item := none }

/-- The location after a value may have been written to it: an identity that is looked up in
    a catalog, or nothing. -/
def Location.rewritten (l : Location) (catalog : Catalog) : Option (Option ItemId) → Location
  | none => l
  | some value => { l with item := value.map catalog }

/-- The value that is written last stays. -/
theorem Location.rewritten_rewritten (l : Location) (catalog : Catalog)
    (first last : Option (Option ItemId)) :
    (l.rewritten catalog first).rewritten catalog last = l.rewritten catalog (last.or first) := by
  cases last with
  | some value => cases first <;> rfl
  | none => rfl

/-- The entries of a placement as changes, their items looked up in a catalog. -/
def Placement.changes (p : Placement) (catalog : Catalog) : List Change :=
  p.entries.entries.map fun entry => .place entry.1 (entry.2.map catalog)

namespace Atlas

/-- The atlas with nothing in its locations, and without the chains of what was there. -/
def emptied (a : Atlas) : Atlas :=
  { a with locations := a.locations.map Location.emptied, chains := [] }

variable {a b : Atlas}

/-- The atlas after an item, or nothing, has been written to a position: a copy is registered. -/
def written (a : Atlas) (i : Nat) (item : Option Item) : Atlas :=
  { a with
    locations := a.locations.modify i fun l => { l with item }
    chains := register a.chains item }

/-- Writing moves no key. -/
theorem position?_written (a : Atlas) (i : Nat) (item : Option Item) :
    (a.written i item).position? = a.position? := rfl

/-- Placing writes to the position that the key resolves to. -/
theorem place_of_resolved {key : Key} {i : Nat} (resolved : a.position? key = some i)
    (item : Option Item) : a.place key item = .ok (a.written i item) := by
  rw [place, resolved]
  rfl

/-- As a change, too, placing writes to the position that the key resolves to. -/
theorem after_place {key : Key} {i : Nat} (resolved : a.position? key = some i)
    (item : Option Item) : a.after (.place key item) = a.written i item := by
  rw [after, place_of_resolved resolved]
  rfl

/-- Placing where no key resolves does nothing. -/
theorem after_place_of_unresolved {key : Key} (unresolved : a.position? key = none)
    (item : Option Item) : a.after (.place key item) = a := by
  simp only [after, place, unresolved, Except.toOption, Option.getD_none]

/-- Placing changes nothing but what lies where. -/
theorem emptied_after_place (a : Atlas) (key : Key) (item : Option Item) :
    (a.after (.place key item)).emptied = a.emptied := by
  cases resolved : a.position? key with
  | none => rw [after_place_of_unresolved resolved]
  | some i =>
    rw [after_place resolved]
    have same : (a.locations.modify i fun l => { l with item }).map Location.emptied =
        a.locations.map Location.emptied := by
      refine map_modify_of_kept Location.emptied _ ?_ _ _
      intro l
      rfl
    simp only [emptied, written, same]

/-- Atlases that differ in what lies where resolve a key alike. -/
theorem position?_of_emptied (same : a.emptied = b.emptied) (key : Key) :
    a.position? key = b.position? key := by
  have index : a.emptied.index = b.emptied.index := congrArg Atlas.index same
  change a.index = b.index at index
  rw [position?, position?, index]

/-- What resolves still does after something has been placed. -/
theorem isSome_position?_after_place {key other : Key} (item : Option Item)
    (resolved : (a.position? other).isSome) :
    ((a.after (.place key item)).position? other).isSome := by
  rw [position?_of_emptied (a.emptied_after_place key item)]
  exact resolved

/-- The entries of a placement change nothing but what lies where. -/
theorem emptied_replay_changes (a : Atlas) (p : Placement) (catalog : Catalog) :
    (a.replay (p.changes catalog)).emptied = a.emptied := by
  refine @replay_induction (fun b => b.emptied = a.emptied) _ _ rfl ?_
  intro b change member same
  obtain ⟨entry, _, rfl⟩ := List.mem_map.mp member
  rw [emptied_after_place, same]

end Atlas

namespace Placement

variable {a : Atlas}

/-- Entries whose keys resolve are all placed. -/
theorem foldlM_placeEntry (catalog : Catalog) {entries : List (Key × Option ItemId)}
    (resolved : ∀ entry ∈ entries, (a.position? entry.1).isSome) :
    entries.foldlM (placeEntry catalog) a =
      .ok (a.replay (entries.map fun entry => .place entry.1 (entry.2.map catalog))) := by
  induction entries generalizing a with
  | nil => rfl
  | cons entry rest ih =>
    obtain ⟨i, found⟩ := Option.isSome_iff_exists.mp (resolved entry List.mem_cons_self)
    have placed : placeEntry catalog a entry =
        .ok (a.after (.place entry.1 (entry.2.map catalog))) := by
      rw [Atlas.after_place found, placeEntry, Atlas.place_of_resolved found]
    rw [List.foldlM_cons, placed, List.map_cons, Atlas.replay_cons]
    exact ih fun other member =>
      Atlas.isSome_position?_after_place _ (resolved other (List.mem_cons_of_mem entry member))

/-- A placement with a key that resolves nowhere is refused. -/
theorem apply_of_unresolved {p : Placement} {key : Key} (found : p.unresolved? a = some key)
    (catalog : Catalog) : p.apply catalog a = .error (.unknownLocation key) := by
  rw [apply, found]

/-- The keys of a placement that is not refused resolve. -/
theorem position?_of_resolved {p : Placement} (resolved : p.unresolved? a = none)
    {entry : Key × Option ItemId} (member : entry ∈ p.entries.entries) :
    (a.position? entry.1).isSome := by
  have known := List.find?_eq_none.mp resolved entry.1 (List.mem_map_of_mem member)
  rw [Atlas.find?] at known
  cases found : a.position? entry.1 with
  | none => simp [found] at known
  | some i => rfl

/-- A placement whose keys all resolve is applied to its end. -/
theorem apply_of_resolved {p : Placement} (resolved : p.unresolved? a = none)
    (catalog : Catalog) : p.apply catalog a = .ok (a.replay (p.changes catalog)) := by
  rw [apply, resolved]
  exact foldlM_placeEntry catalog fun entry member => position?_of_resolved resolved member

/-- The keys of a placement resolve where it is applied without a fault. -/
theorem resolved_of_apply {p : Placement} {catalog : Catalog} {b : Atlas}
    (applied : p.apply catalog a = .ok b) : p.unresolved? a = none := by
  cases outcome : p.unresolved? a with
  | some key =>
    rw [apply_of_unresolved outcome] at applied
    cases applied
  | none => rfl

/-- Where a placement leads that is applied without a fault. -/
theorem eq_replay_of_apply {p : Placement} {catalog : Catalog} {b : Atlas}
    (applied : p.apply catalog a = .ok b) : b = a.replay (p.changes catalog) := by
  rw [apply_of_resolved (resolved_of_apply applied)] at applied
  exact (Except.ok.inj applied).symm

/-- What some entries write to a position: the value of the last one that resolves to it. -/
def writtenTo (a : Atlas) (entries : List (Key × Option ItemId)) (i : Nat) :
    Option (Option ItemId) :=
  (entries.reverse.find? fun entry => a.position? entry.1 = some i).map (·.2)

/-- A position is written with a value where some entry resolves to it and all entries that
    do agree on the value. -/
theorem writtenTo_of_agree {entries : List (Key × Option ItemId)} {i : Nat}
    {entry : Key × Option ItemId} (listed : entry ∈ entries)
    (resolved : a.position? entry.1 = some i)
    (agree : ∀ other ∈ entries, a.position? other.1 = some i → other.2 = entry.2) :
    writtenTo a entries i = some entry.2 := by
  rw [writtenTo]
  cases found : entries.reverse.find? fun other => a.position? other.1 = some i with
  | none =>
    have missed := List.find?_eq_none.mp found entry (List.mem_reverse.mpr listed)
    exact absurd resolved (by simpa using missed)
  | some last =>
    have here : a.position? last.1 = some i := by simpa using List.find?_some found
    have member := List.mem_reverse.mp (List.mem_of_find?_eq_some found)
    exact congrArg some (agree last member here)

/-- A further entry in front only writes what the others leave alone. -/
theorem writtenTo_cons (a : Atlas) (entry : Key × Option ItemId)
    (rest : List (Key × Option ItemId)) (i : Nat) :
    writtenTo a (entry :: rest) i =
      (writtenTo a rest i).or (if a.position? entry.1 = some i then some entry.2 else none) := by
  rw [writtenTo, writtenTo, List.reverse_cons, List.find?_append]
  cases rest.reverse.find? fun other => a.position? other.1 = some i with
  | some last => rfl
  | none => by_cases here : a.position? entry.1 = some i <;> simp [here]

/-- Placing an entry rewrites the location that its key resolves to. -/
theorem getElem?_after_place (a : Atlas) (catalog : Catalog) (entry : Key × Option ItemId)
    (i : Nat) :
    (a.after (.place entry.1 (entry.2.map catalog))).locations[i]? =
      a.locations[i]?.map fun l => l.rewritten catalog
        (if a.position? entry.1 = some i then some entry.2 else none) := by
  cases resolved : a.position? entry.1 with
  | none =>
    rw [Atlas.after_place_of_unresolved resolved]
    simp [Location.rewritten]
  | some j =>
    rw [Atlas.after_place resolved, Atlas.written, List.getElem?_modify]
    by_cases same : j = i <;> simp [same, Location.rewritten]

/-- Entries that are placed one after the other leave in each location what the last of
    them writes to it. -/
theorem getElem?_replay_place (a : Atlas) (catalog : Catalog)
    (entries : List (Key × Option ItemId)) (i : Nat) :
    (a.replay (entries.map fun entry => .place entry.1 (entry.2.map catalog))).locations[i]? =
      a.locations[i]?.map fun l => l.rewritten catalog (writtenTo a entries i) := by
  induction entries generalizing a with
  | nil => simp [writtenTo, Location.rewritten]
  | cons entry rest ih =>
    have same : writtenTo (a.after (.place entry.1 (entry.2.map catalog))) rest i =
        writtenTo a rest i := by
      simp only [writtenTo, Atlas.position?_of_emptied (a.emptied_after_place _ _)]
    rw [List.map_cons, Atlas.replay_cons, ih, getElem?_after_place, Option.map_map, same,
      writtenTo_cons]
    congr 1
    funext l
    exact l.rewritten_rewritten catalog _ _

end Placement

end ItemLogic
