import ItemLogic.Proofs.Coherence
import ItemLogic.World.Build
import Mathlib.Data.List.Flatten
import Mathlib.Data.List.Nodup

/-!
# The world can be built

No two slots of the world share a key, whatever groups the options call for: the keys that
some options call for are, in their order, among the keys of the world in which every group
is there, and those are distinct. No location is therefore refused when a world is built, and
the keys of the world are those of its slots, whatever catalog fills it.
-/

namespace ItemLogic

/-- A list is free of repetition when the parts of it that some function tells apart are. -/
theorem nodup_of_nodup_filter {α β : Type} [DecidableEq α] [DecidableEq β] (part : α → β)
    {l : List α} (parts : ∀ b ∈ l.map part, (l.filter fun a => part a = b).Nodup) : l.Nodup := by
  refine List.nodup_iff_count_le_one.mpr fun a => ?_
  by_cases member : a ∈ l
  · have once := List.nodup_iff_count_le_one.mp (parts (part a) (List.mem_map_of_mem member)) a
    rwa [List.count_filter (by simp)] at once
  · rw [List.count_eq_zero_of_not_mem member]
    exact Nat.zero_le 1

namespace Atlas

variable {a : Atlas}

/-- No other location lies in a room that is a location as a whole. -/
def RoomsAlone (a : Atlas) : Prop := ∀ key ∈ a.keys, key.toRoom ∈ a.keys → key.toRoom = key

/-- New locations are all added, and come behind those that are there. -/
theorem Coherent.exists_foldlM_add (coherent : a.Coherent) {ls : List Location}
    (distinct : (a.keys ++ ls.map (·.key)).Nodup) :
    ∃ b, ls.foldlM Atlas.add a = .ok b ∧ b.locations = a.locations ++ ls := by
  induction ls generalizing a with
  | nil => exact ⟨a, rfl, (List.append_nil _).symm⟩
  | cons l rest ih =>
    have new : ¬ a.index.contains l.key = true := by
      rw [coherent.contains_iff]
      intro known
      exact (List.nodup_append.mp distinct).2.2 l.key known l.key List.mem_cons_self rfl
    obtain ⟨b, added⟩ : ∃ b, a.add l = .ok b := ⟨_, if_neg new⟩
    have behind : b.locations = a.locations ++ [l] := by
      rw [add, if_neg new] at added
      cases added
      rfl
    have keys : a.keys ++ (l :: rest).map (·.key) = b.keys ++ rest.map (·.key) := by
      simp [Atlas.keys, behind]
    have split : a.locations ++ l :: rest = b.locations ++ rest := by
      rw [behind, List.append_assoc, List.singleton_append]
    rw [keys] at distinct
    rw [List.foldlM_cons, added, split]
    exact ih (coherent_add coherent added) distinct

end Atlas

/-- The second options call for every optional group that the first call for. -/
structure Options.GroupsWithin (o o' : Options) : Prop where
  gyreArchives : o.gyreArchives = true → o'.gyreArchives = true
  downloadableItems : o.downloadableItems = true → o'.downloadableItems = true
  cantoran : o.cantoran = true → o'.cantoran = true
  loreChecks : o.loreChecks = true → o'.loreChecks = true

namespace World

/-- The keys of the slots that options call for, in order. -/
def keys (o : Options) : List Key :=
  ((areas o).flatMap fun area => area.slots.map (·.key)) ++
    if o.startWithTalaria then [.start] else []

/-- The options that call for every group of slots. -/
def everywhere : Options :=
  { gyreArchives := true, downloadableItems := true, cantoran := true, loreChecks := true,
    startWithTalaria := true }

/-- A catalog and its items have no say in the keys. -/
theorem keys_locations (catalog : Catalog) (o : Options) :
    (locations catalog o).map (·.key) = keys o := by
  rw [locations, keys, List.map_append, List.map_flatMap]
  congr 1
  · simp only [List.map_map, Function.comp_def, Slot.location]
  · split <;> rfl

/-- A location of the world is that of a slot in some area, or what the player starts with. -/
theorem mem_locations {catalog : Catalog} {o : Options} {l : Location} :
    l ∈ locations catalog o ↔
      (∃ area ∈ areas o, ∃ slot ∈ area.slots,
        slot.location area.name (.ofOptions o) catalog = l) ∨
      o.startWithTalaria = true ∧ l = talaria catalog := by
  rw [locations, List.mem_append, List.mem_flatMap]
  refine or_congr ?_ ?_
  · simp only [List.mem_map]
  · split <;> simp [*]

/-- A group that more options call for is there in the larger world if it is in the smaller. -/
private theorem optional_sublist {α : Type} {called called' : Bool}
    (implied : called = true → called' = true) (group : List α) :
    (if called then group else []).Sublist (if called' then group else []) := by
  cases called with
  | true => rw [implied rfl]
  | false => exact List.nil_sublist _

/-- With more groups there are the same areas and more, in the same order. -/
theorem areas_sublist_of_groups {o o' : Options} (within : o.GroupsWithin o') :
    (areas o).Sublist (areas o') :=
  ((((List.Sublist.refl (present ++ past ++ pyramid)).append
    (optional_sublist within.gyreArchives gyre)).append
    (optional_sublist within.downloadableItems terminals)).append
    (optional_sublist within.cantoran cantoran)).append (optional_sublist within.loreChecks lore)

/-- The areas that options call for are among all areas, in the same order. -/
theorem areas_sublist (o : Options) : (areas o).Sublist (areas everywhere) :=
  areas_sublist_of_groups ⟨fun _ => rfl, fun _ => rfl, fun _ => rfl, fun _ => rfl⟩

/-- The keys that options call for are among all keys, in the same order. -/
theorem keys_sublist (o : Options) : (keys o).Sublist (keys everywhere) :=
  ((areas_sublist o).flatMap _).append (optional_sublist (fun _ => rfl) [Key.start])

/-- The numbers of the levels. -/
def levels : List Int32 := (List.range 17).map Int32.ofNat

/-- No key of the world occurs twice. Keys of different levels are different, so the levels
    are looked at one by one. -/
theorem nodup_keys_everywhere : (keys everywhere).Nodup := by
  have listed : ((keys everywhere).all fun key => levels.contains key.level) = true := by
    decide +kernel
  have parts : (levels.all fun level =>
      decide ((keys everywhere).filter fun key => key.level = level).Nodup) = true := by
    decide +kernel
  refine nodup_of_nodup_filter Key.level fun level member => ?_
  obtain ⟨key, present, rfl⟩ := List.mem_map.mp member
  have known := List.contains_iff_mem.mp (List.all_eq_true.mp listed key present)
  exact of_decide_eq_true (List.all_eq_true.mp parts key.level known)

/-- No key of a world occurs twice, whatever the options. -/
theorem nodup_keys (o : Options) : (keys o).Nodup :=
  nodup_keys_everywhere.sublist (keys_sublist o)

/-- A slot that stands for a whole room is alone there: no other slot lies in the room. -/
theorem toRoom_eq_of_mem_keys {o o' : Options} {key : Key} (listed : key ∈ keys o)
    (room : key.toRoom ∈ keys o') : key.toRoom = key := by
  have alone : ((keys everywhere).all fun room => !room.isRoom ||
      (keys everywhere).all fun key => decide (key.toRoom = room → room = key)) = true := by
    decide +kernel
  have others := List.all_eq_true.mp alone key.toRoom ((keys_sublist o').subset room)
  rw [Bool.or_eq_true] at others
  rcases others with spot | others
  · cases spot
  · exact of_decide_eq_true (List.all_eq_true.mp others key ((keys_sublist o).subset listed)) rfl

/-- In an atlas with the keys of a world, the location of a room is alone in the room. -/
theorem roomsAlone_of_keys {a : Atlas} {o : Options} (listed : a.keys = keys o) : a.RoomsAlone :=
  fun _ => listed ▸ toRoom_eq_of_mem_keys

/-- What the player starts with lies in none of the slots that are listed by area. -/
theorem start_not_mem_slots (o : Options) :
    Key.start ∉ (areas o).flatMap fun area => area.slots.map (·.key) := by
  have distinct := nodup_keys { o with startWithTalaria := true }
  rw [keys, if_pos rfl] at distinct
  exact fun listed =>
    (List.nodup_append.mp distinct).2.2 _ listed _ (List.mem_singleton_self _) rfl

/-- The world can be built for all options, whatever the catalog and the unlocks, and consists
    of the locations that the options call for. -/
theorem exists_build_locations (catalog : Catalog) (unlocks : Unlocks) (o : Options) :
    ∃ w, build catalog unlocks o = .ok w ∧ w.locations = locations catalog o := by
  have distinct : ((Atlas.empty unlocks o).keys ++ (locations catalog o).map (·.key)).Nodup := by
    rw [keys_locations]
    exact nodup_keys o
  exact (Atlas.coherent_empty unlocks o).exists_foldlM_add distinct

/-- A world can be built for all options, and has exactly the keys that they call for. -/
theorem exists_build (catalog : Catalog) (unlocks : Unlocks) (o : Options) :
    ∃ w, build catalog unlocks o = .ok w ∧ w.keys = keys o := by
  obtain ⟨w, built, all⟩ := exists_build_locations catalog unlocks o
  exact ⟨w, built, by rw [Atlas.keys, all, keys_locations]⟩

end World

end ItemLogic
