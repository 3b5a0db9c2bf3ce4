import ItemLogic.Json.Texts
import ItemLogic.Key.Lemmas
import ItemLogic.Stored.Placement

/-!
# The texts of stored placements

An identity is one field whose name says what kind of name its value is, and a placement is an
object whose fields bind keys one after the other. Both have many texts, which are read alike:
an identity for what it is, and a placement field by field, up to the first name that is no key.
What is written is one of the texts, so a placement is read back from its stored form, whatever
its keys and whatever they are bound to.
-/

namespace ItemLogic

open Json (Blank ObjectText Reader Reads StringText)

/-! ### Names -/

/-- A use item is found under its name. -/
theorem UseItem.named?_name (item : UseItem) : named? item.name = some item := by
  cases item <;> rfl

/-- A relic is found under its name. -/
theorem Relic.named?_name (relic : Relic) : named? relic.name = some relic := by
  cases relic <;> rfl

/-- The element of an orb is found under its name. -/
theorem Orb.named?_name (orb : Orb) : named? orb.name = some orb := by
  cases orb <;> rfl

/-- The slot of an orb is found under its name. -/
theorem OrbSlot.named?_name (slot : OrbSlot) : named? slot.name = some slot := by
  cases slot <;> rfl

/-- A piece of equipment is found under its name. -/
theorem Equipment.named?_name (equipment : Equipment) :
    named? equipment.name = some equipment := by
  cases equipment <;> rfl

/-- A familiar is found under its name. -/
theorem Familiar.named?_name (familiar : Familiar) : named? familiar.name = some familiar := by
  cases familiar <;> rfl

/-- A stat is found under its name. -/
theorem Stat.named?_name (stat : Stat) : named? stat.name = some stat := by
  cases stat <;> rfl

/-- An upgrade is found under its name. -/
theorem Upgrade.named?_name (upgrade : Upgrade) : named? upgrade.name = some upgrade := by
  cases upgrade
  rfl

namespace ItemId

/-- The texts of a name: a string, or an object with `null` under the name. -/
inductive NameText (name : String) : List Char → Prop
  | bare {text : List Char} (string : StringText name text) : NameText name text
  | tagged {text : List Char} (object : ObjectText Json.NullText [(name, ())] text) :
      NameText name text

/-- The texts of an orb: an array of the names of its element and its slot. -/
inductive OrbText (element slot : String) : List Char → Prop
  | mk {before first between after second behind : List Char} (blankBefore : Blank before)
      (elementText : NameText element first) (blankBetween : Blank between)
      (blankAfter : Blank after) (slotText : NameText slot second) (blankBehind : Blank behind) :
      OrbText element slot ('[' :: (before ++ (first ++ (between ++ ',' ::
        (after ++ (second ++ (behind ++ [']'])))))))

/-- The name of the field that an identity is stored under. -/
def kind : ItemId → String
  | .useItem _ => "UseItem"
  | .relic _ => "Relic"
  | .orb _ _ => "Orb"
  | .equipment _ => "Equipment"
  | .familiar _ => "Familiar"
  | .stat _ => "Stat"
  | .upgrade _ => "Progressive"

/-- The texts of what stands under the kind of an identity. -/
def PayloadText : ItemId → List Char → Prop
  | .useItem item => NameText item.name
  | .relic item => NameText item.name
  | .orb element slot => OrbText element.name slot.name
  | .equipment item => NameText item.name
  | .familiar item => NameText item.name
  | .stat item => NameText item.name
  | .upgrade item => NameText item.name

/-- The texts of an identity. -/
def IdText (id : ItemId) : List Char → Prop := ObjectText PayloadText [(id.kind, id)]

variable {α : Type} {named? : String → Option α} {name : String} {value : α} {text : List Char}

/-- A name is read as what it names, in either form. -/
theorem reads_nameText (named : named? name = some value) (written : NameText name text) :
    Reads (storedName named?) text value := by
  intro blanks blank rest
  cases written with
  | bare string =>
    obtain ⟨letters, _, start⟩ := id string
    have read := Json.reads_stringText string [] Json.blank_nil rest
    rw [List.nil_append, start, List.cons_append] at read
    rw [storedName, start, List.cons_append, Json.skipBlanks_append_cons blank rfl]
    -- The text begins with a quote and with no brace, so the name stands by itself.
    change (Json.string _ >>= fun read => ofStoredName named? read.1 >>= fun value =>
      .ok (value, read.2)) = _
    simp only [bind, Except.bind, read, ofStoredName, named]
  | tagged object =>
    obtain ⟨before, nameChars, between, after, null, behind, blankBefore, nameText, blankBetween,
      blankAfter, nullText, blankBehind, rfl⟩ := object.exists_of_singleton
    rw [storedName, List.cons_append, Json.skipBlanks_append_cons blank rfl]
    simp only [bind, Except.bind, List.append_assoc, List.cons_append,
      Json.reads_stringText nameText _ blankBefore, ofStoredName, named,
      Json.symbol_written blankBetween (c := ':') rfl, Json.reads_nullText nullText _ blankAfter,
      List.nil_append, Json.symbol_written blankBehind (c := '}') rfl]
    rfl

/-- A name is read as the identity of what it names. -/
theorem reads_storedAs (named : named? name = some value) (identity : α → ItemId)
    (written : NameText name text) : Reads (storedAs named? identity) text (identity value) :=
  (reads_nameText named written).map identity

/-- The names of an orb are read in their order. -/
theorem reads_orbText {element : Orb} {slot : OrbSlot}
    (written : OrbText element.name slot.name text) : Reads storedOrb text (.orb element slot) := by
  intro blanks blank rest
  obtain ⟨before, elementText, between, after, slotText, behind⟩ := written
  simp only [storedOrb, List.append_assoc, List.cons_append, bind, Except.bind,
    Json.symbol_written blank (c := '[') rfl,
    reads_nameText element.named?_name elementText _ before,
    Json.symbol_written between (c := ',') rfl, reads_nameText slot.named?_name slotText _ after,
    List.nil_append, Json.symbol_written behind (c := ']') rfl]
  rfl

/-- What stands under the kind of an identity is read by the reader of the kind. -/
theorem exists_reader_of_kind (id : ItemId) :
    ∃ reader, storedKind id.kind = .ok reader ∧
      ∀ text, PayloadText id text → Reads reader text id := by
  cases id with
  | useItem item => exact ⟨_, rfl, fun _ => reads_storedAs item.named?_name .useItem⟩
  | relic relic => exact ⟨_, rfl, fun _ => reads_storedAs relic.named?_name .relic⟩
  | orb element slot => exact ⟨_, rfl, fun _ => reads_orbText⟩
  | equipment item => exact ⟨_, rfl, fun _ => reads_storedAs item.named?_name .equipment⟩
  | familiar item => exact ⟨_, rfl, fun _ => reads_storedAs item.named?_name .familiar⟩
  | stat stat => exact ⟨_, rfl, fun _ => reads_storedAs stat.named?_name .stat⟩
  | upgrade item => exact ⟨_, rfl, fun _ => reads_storedAs item.named?_name .upgrade⟩

/-- Every text of an identity is read as the identity. -/
theorem reads_idText {id : ItemId} (written : IdText id text) : Reads stored text id := by
  intro blanks blank rest
  obtain ⟨reader, known, reads⟩ := id.exists_reader_of_kind
  obtain ⟨before, name, between, after, payload, behind, blankBefore, kindText, blankBetween,
    blankAfter, payloadText, blankBehind, rfl⟩ := ObjectText.exists_of_singleton written
  simp only [stored, List.append_assoc, List.cons_append, bind, Except.bind,
    Json.symbol_written blank (c := '{') rfl, Json.reads_stringText kindText _ blankBefore, known,
    Json.symbol_written blankBetween (c := ':') rfl, reads payload payloadText _ blankAfter,
    List.nil_append, Json.symbol_written blankBehind (c := '}') rfl]
  rfl

/-- The text of an identity begins with a brace. -/
theorem exists_of_idText {id : ItemId} (written : IdText id text) : ∃ cs, text = '{' :: cs := by
  obtain _ | fields := written
  exact ⟨_, rfl⟩

/-- The stored form of an identity is one of its texts. -/
theorem idText_json (depth : Nat) (id : ItemId) : IdText id (id.json depth).toList := by
  have field (value : String) (payload : PayloadText id value.toList) :
      IdText id (json.field depth id.kind value).toList :=
    Json.objectText_prettyObject depth (fun _ => value) fun entry member => by
      rwa [List.mem_singleton.mp member]
  have name (content : String) : NameText content (Json.quoted content).toList :=
    .bare (Json.stringText_quoted content)
  cases id with
  | useItem item => exact field _ (name item.name)
  | relic relic => exact field _ (name relic.name)
  | orb element slot =>
    refine field _ ?_
    have gap := Json.blank_lineBreak (depth + 1 + 1)
    have closing := Json.blank_lineBreak (depth + 1)
    have array := OrbText.mk gap (name element.name) Json.blank_nil gap (name slot.name) closing
    rw [Json.prettyArray, Json.lines_chars _ _ _ (List.cons_ne_nil _ _), List.map_cons,
      List.map_singleton, List.intercalate_cons_cons, List.intercalate_singleton]
    simpa [PayloadText] using array
  | equipment item => exact field _ (name item.name)
  | familiar item => exact field _ (name item.name)
  | stat stat => exact field _ (name stat.name)
  | upgrade item => exact field _ (name item.name)

end ItemId

namespace Key

/-- A key is read back from its stored text. -/
theorem ofStored_text (key : Key) : ofStored key.text = .ok key := by
  rw [ofStored, text, String.toList_ofList, ofChars?_chars]

/-- A stored string stands for the key that its text denotes. -/
theorem ofStored_eq_ok_iff {name : String} {key : Key} :
    ofStored name = .ok key ↔ parse name = .ok key := by
  rw [ofStored, parse]
  cases ofChars? name.toList <;> simp

/-- What no text of a key is, is refused wherever a key is read. -/
theorem ofChars?_of_refused {name : String} (refused : ¬ ∃ key, parse name = .ok key) :
    ofChars? name.toList = none := by
  rw [parse] at refused
  cases read : ofChars? name.toList with
  | none => rfl
  | some key => exact absurd ⟨key, by rw [read]⟩ refused

end Key

namespace Placement

/-- The texts of what a key is bound to: `null`, or those of an identity. -/
def ItemText : Option ItemId → List Char → Prop
  | none => Json.NullText ()
  | some id => ItemId.IdText id

/-- The texts of an object with some entries, blanks around it. -/
def Written (entries : List (String × Option ItemId)) (text : String) : Prop :=
  ∃ before object after, Blank before ∧ ObjectText ItemText entries object ∧ Blank after ∧
    text.toList = before ++ (object ++ after)

/-- Binds the key that a name stands for. -/
def bindEntry (m : KeyMap (Option ItemId)) (entry : String × Option ItemId) :
    Except JsonFault (KeyMap (Option ItemId)) :=
  (Key.ofStored entry.1).map fun key => m.insert key entry.2

/-- Every text of what a key is bound to is read as that, nothing included. -/
theorem reads_itemText {item : Option ItemId} {text : List Char} (written : ItemText item text) :
    Reads storedItem text item := by
  intro blanks blank rest
  cases item with
  | none =>
    have reads := (Json.reads_nullText written).map (fun _ => (none : Option ItemId)) blanks blank
      rest
    have start : text ++ rest = 'n' :: 'u' :: 'l' :: 'l' :: rest := by rw [written]; rfl
    rw [storedItem, start, Json.skipBlanks_append_cons blank rfl]
    rw [start] at reads
    exact reads
  | some id =>
    obtain ⟨cs, start⟩ := ItemId.exists_of_idText written
    have reads := (ItemId.reads_idText written).map some blanks blank rest
    rw [storedItem, start, List.cons_append, Json.skipBlanks_append_cons blank rfl]
    rw [start, List.cons_append] at reads
    exact reads

/-- The reader of a placement takes every entry by binding it, and refuses an entry only for its
    name. -/
theorem takes_storedField (entry : String × Option ItemId) :
    Json.Takes storedField ItemText bindEntry entry where
  refuses m fault refused := by
    rw [storedField]
    rw [bindEntry] at refused
    cases named : Key.ofStored entry.1 with
    | error cause => simpa [named, bind, Except.bind, Except.map] using refused
    | ok key => simp [named, Except.map] at refused
  accepts m next taken := by
    rw [bindEntry] at taken
    cases named : Key.ofStored entry.1 with
    | error cause => simp [named, Except.map] at taken
    | ok key =>
      have bound : m.insert key entry.2 = next := by simpa [named, Except.map] using taken
      refine ⟨_, by rw [storedField, named]; rfl, fun text written => ?_⟩
      exact bound ▸ (reads_itemText written).map (m.insert key)

/-- Every text of a placement is read by binding its entries one after the other. -/
theorem ofJson_of_written {entries : List (String × Option ItemId)} {text : String}
    (written : Written entries text) :
    ofJson text = ((entries.foldlM bindEntry ∅).map Placement.mk).mapError .json := by
  obtain ⟨before, object, after, blankBefore, objectText, blankAfter, chars⟩ := written
  have read := Json.object_eq_foldlM (fun entry _ => takes_storedField entry) objectText ∅
    blankBefore after
  have rest : Json.skipBlanks after = [] := by
    have skipped := Json.skipBlanks_append blankAfter []
    rwa [List.append_nil] at skipped
  rw [ofJson, Json.document, chars, stored, read]
  cases entries.foldlM bindEntry ∅ with
  | error fault => rfl
  | ok last => simp [Except.map, bind, Except.bind, rest]

/-- An object that is written with one field to a line is a text of its entries. -/
theorem written_prettyObject (entries : List (String × Option ItemId)) :
    Written entries
      (Json.prettyObject 0 (entries.map fun entry => (entry.1, itemJson entry.2))) := by
  have valueText : ∀ entry ∈ entries, ItemText entry.2 (itemJson entry.2).toList := by
    intro entry _
    cases entry.2 with
    | none => exact String.toList_ofList
    | some id => exact id.idText_json 1
  exact ⟨[], _, [], Json.blank_nil, Json.objectText_prettyObject 0 itemJson valueText,
    Json.blank_nil, by simp⟩

/-- The keys and values that entries bind, in their order. -/
def Binds (entries : List (String × Option ItemId))
    (bindings : List (Key × Option ItemId)) : Prop :=
  List.Forall₂ (fun entry binding => Key.parse entry.1 = .ok binding.1 ∧ entry.2 = binding.2)
    entries bindings

/-- Entries whose names are all keys are bound one after the other. -/
theorem foldlM_bindEntry_of_binds {entries : List (String × Option ItemId)}
    {bindings : List (Key × Option ItemId)} (binds : Binds entries bindings)
    (m : KeyMap (Option ItemId)) :
    entries.foldlM bindEntry m =
      .ok (bindings.foldl (fun m entry => m.insert entry.1 entry.2) m) := by
  induction binds generalizing m with
  | nil => rfl
  | cons first later ih =>
    obtain ⟨named, held⟩ := first
    rw [List.foldlM_cons, bindEntry, Key.ofStored_eq_ok_iff.mpr named, held]
    exact ih _

/-- The texts of keys bind the keys. -/
theorem binds_texts (bindings : List (Key × Option ItemId)) :
    Binds (bindings.map fun entry => (entry.1.text, entry.2)) bindings :=
  List.forall₂_map_left_iff.mpr
    (List.forall₂_same.mpr fun entry _ => ⟨Key.ofStored_eq_ok_iff.mp entry.1.ofStored_text, rfl⟩)

/-- A placement is read back from its stored form. -/
theorem ofJson_json (p : Placement) : ofJson p.json = .ok p := by
  have written := written_prettyObject (p.entries.entries.map fun entry => (entry.1.text, entry.2))
  rw [List.map_map] at written
  have read := ofJson_of_written written
  rw [foldlM_bindEntry_of_binds (binds_texts _)] at read
  have same : KeyMap.ofList p.entries.entries = p.entries := KeyMap.ofList_entries _
  rw [KeyMap.ofList] at same
  rw [same] at read
  exact read

end Placement

end ItemLogic
