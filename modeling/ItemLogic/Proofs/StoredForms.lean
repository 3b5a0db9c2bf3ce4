import ItemLogic.Stored.Lemmas
import ItemLogic.Stored.Save

/-!
# Stored forms read back

Placements are stored with one entry to a line, saves without blanks. Each is read back for what
it was. A placement is read field by field, a save key by key, and either way the keys come in
their order, so that binding them one after the other gives the map again. Nothing is asked of
the keys or of what they are bound to: a key is written in decimal, and its text is read back for
every pair of signed words and every position.
-/

namespace ItemLogic

open Json (Reads)

/-- A key is read back from its stored form. -/
theorem Key.reads_stored (key : Key) : Reads stored (Json.quoted key.text).toList key := by
  intro blanks blank rest
  simp only [stored, bind, Except.bind, Json.reads_string key.text blanks blank rest,
    ofStored_text]
  rfl

namespace Save

/-- The keys of an array are put into a set one after the other. -/
theorem stringsRead_storedKey (m : KeySet) (keys : List Key) :
    Json.StringsRead storedKey m (keys.map Key.text)
      (keys.foldl (fun m key => m.insert key ()) m) := by
  induction keys generalizing m with
  | nil => exact .nil m
  | cons key rest ih => exact .cons (key.reads_stored.map (m.insert · ())) (ih (m.insert key ()))

/-- The keys of a set, put into a set one after the other, give the set. -/
theorem foldl_insert_keys (m : KeySet) :
    m.keys.foldl (fun m key => m.insert key ()) ∅ = m := by
  rw [KeyMap.keys, List.foldl_map]
  exact m.ofList_entries

/-- A set of keys is read back from the array of its keys. -/
theorem reads_storedKeys (m : KeySet) :
    Reads storedKeys (Json.compactArray (m.keys.map Key.json)).toList m := by
  have reads := Json.reads_compactArray (stringsRead_storedKey ∅ m.keys)
  rw [foldl_insert_keys, List.map_map] at reads
  exact reads

/-- The text of a set of keys. -/
def KeysText (m : KeySet) (text : List Char) : Prop :=
  text = (Json.compactArray (m.keys.map Key.json)).toList

/-- What the field of a save leads to: its keys, which must not be there yet. -/
def takeKeys (state : Option KeySet) (entry : String × KeySet) :
    Except JsonFault (Option KeySet) :=
  if state.isSome then .error .malformed else .ok (some entry.2)

/-- The reader of a save takes the field of the collected keys, once. -/
theorem takes_collected (m : KeySet) :
    Json.Takes storedField KeysText takeKeys ("collected", m) where
  refuses state fault refused := by
    cases state with
    | none => cases refused
    | some keys =>
      cases refused
      rfl
  accepts state next taken := by
    cases state with
    | none =>
      cases taken
      exact ⟨_, rfl, fun text written => written ▸ (reads_storedKeys m).map some⟩
    | some keys => cases taken

/-- A save is read back from its stored form. -/
theorem ofJson_json (save : Save) : ofJson save.json = .ok save := by
  have valueText : ∀ entry ∈ [("collected", save.collected)],
      KeysText entry.2 (Json.compactArray (entry.2.keys.map Key.json)).toList := fun _ _ => rfl
  have written := Json.objectText_compactObject
    (fun m : KeySet => Json.compactArray (m.keys.map Key.json)) valueText
  have takes := fun entry (listed : entry ∈ [("collected", save.collected)]) =>
    List.mem_singleton.mp listed ▸ takes_collected save.collected
  have reads : Reads stored save.json.toList save := by
    intro blanks blank rest
    have object : Json.object storedField none (blanks ++ (save.json.toList ++ rest)) =
        .ok (some save.collected, rest) := Json.reads_objectText takes written rfl blanks blank rest
    have brace : ∃ cs, save.json.toList = '{' :: cs := by
      simp [json, Json.compactObject]
    obtain ⟨cs, start⟩ := brace
    rw [start, List.cons_append] at object
    rw [stored, start, List.cons_append, Json.skipBlanks_append_cons blank rfl]
    -- The text begins with a brace, so it is taken for an object and not for an array.
    change (Json.object storedField none _).map _ = _
    rw [object]
    rfl
  rw [ofJson, Json.document_written reads]
  rfl

end Save

/-- Every placement and every save is read back from its stored form. -/
theorem stored_forms_read_back :
    (∀ p : Placement, Placement.ofJson p.json = .ok p) ∧
      ∀ save : Save, Save.ofJson save.json = .ok save :=
  ⟨Placement.ofJson_json, Save.ofJson_json⟩

end ItemLogic
