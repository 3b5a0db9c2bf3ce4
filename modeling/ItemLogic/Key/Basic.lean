import ItemLogic.Text.Numeral

/-!
# Location keys

A key names a slot of the world by level and room, and by the position in the
room when it is positional. A room key has no position and stands for the whole
room. Keys are ordered by their coordinates, and a room key comes before the
positional keys of its room: the order of the coordinate lists.
-/

namespace ItemLogic

/-- The address of an item slot. -/
structure Key where
  level : Int32
  room : Int32
  /-- The position in the room; nothing in a key for the whole room. -/
  position : Option (Int32 × Int32)
  deriving DecidableEq

namespace Key

/-- The key of one spot in a room. -/
def spot (level room x y : Int32) : Key := ⟨level, room, some (x, y)⟩

/-- The key of a whole room. -/
def ofRoom (level room : Int32) : Key := ⟨level, room, none⟩

/-- The key of the room that a key lies in. -/
def toRoom (key : Key) : Key := { key with position := none }

/-- Whether the key stands for a whole room. -/
def isRoom (key : Key) : Bool := key.position.isNone

/-- The slot that holds what the player starts with. -/
def start : Key := Key.spot 0 0 0 0

/-- The coordinates in order of significance. -/
def rank (key : Key) : List Int :=
  match key.position with
  | none => [key.level.toInt, key.room.toInt]
  | some (x, y) => [key.level.toInt, key.room.toInt, x.toInt, y.toInt]

instance : LT Key := ⟨fun a b => List.Lex (fun x y : Int => x < y) a.rank b.rank⟩

instance (a b : Key) : Decidable (a < b) :=
  @List.decidableLex Int Int.instDecidableEq (fun x y => x < y) Int.decLt a.rank b.rank

/-- The coordinates in decimal, separated by full stops. -/
def chars (key : Key) : List Char :=
  ['.'].intercalate (key.rank.map Text.ofInteger)

/-- The text form: `level.room`, or `level.room.x.y`. -/
def text (key : Key) : String := String.ofList key.chars

/-- The key of a room is the key of its own room. -/
theorem toRoom_of_isRoom {key : Key} (room : key.isRoom = true) : key.toRoom = key := by
  obtain ⟨level, room, position⟩ := key
  cases position with
  | none => rfl
  | some spot => cases room

/-- Coordinates determine the key. -/
theorem rank_inj {a b : Key} : a.rank = b.rank ↔ a = b := by
  refine ⟨fun same => ?_, fun same => same ▸ rfl⟩
  obtain ⟨la, ra, pa⟩ := a
  obtain ⟨lb, rb, pb⟩ := b
  cases pa <;> cases pb <;> simp_all [rank, Int32.toInt_inj]
  exact Prod.ext same.2.2.1 same.2.2.2

/-- What comes before an earlier key comes before the later one. -/
theorem lt_trans {a b c : Key} (first : a < b) (second : b < c) : a < c :=
  List.lex_trans (fun below above => Int.lt_trans below above) first second

/-- No key comes before itself. -/
theorem lt_irrefl (a : Key) : ¬ a < a := List.lex_irrefl Int.lt_irrefl a.rank

/-- Of two different keys one comes first, since lists of integers are told apart by their
    order. -/
theorem lt_of_not_lt {a b : Key} (after : ¬ a < b) (distinct : a ≠ b) : b < a := by
  refine Decidable.byContradiction fun before => distinct (rank_inj.mp ?_)
  exact (List.le_antisymm after before).symm

end Key

end ItemLogic
