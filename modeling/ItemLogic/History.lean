import ItemLogic.Atlas

/-!
# Histories of atlases

A history lists the changes made to an atlas since it was empty. A change that is
refused, or that names no location, leaves the atlas as it was, so every history
leads to one atlas. The history of an atlas knows more than the atlas: what has been
placed and overwritten since is in it.
-/

namespace ItemLogic

/-- One change to an atlas. -/
inductive Change
  /-- A location is added, unless its key is there already. -/
  | add (l : Location)
  /-- An item, or nothing, is put where a key resolves to. -/
  | place (key : Key) (item : Option Item)
  /-- The location that a key resolves to is picked up. -/
  | pickUp (key : Key)
  /-- A session starts from a save. -/
  | resume (save : Save)
  | setGoal (goal : Gate)

/-- The item that a change brings into the atlas. -/
def Change.item? : Change → Option Item
  | .add l => l.item
  | .place _ item => item
  | _ => none

namespace Atlas

/-- The atlas after a change; a change that is refused leaves it as it was. -/
def after (a : Atlas) : Change → Atlas
  | .add l => (a.add l).toOption.getD a
  | .place key item => (a.place key item).toOption.getD a
  | .pickUp key => (a.pickUp? key).getD a
  | .resume save => a.resume save
  | .setGoal goal => a.withGoal goal

/-- The atlas after changes made one after the other. -/
def replay (a : Atlas) (history : List Change) : Atlas := history.foldl after a

/-- The atlas that a history leads to from the empty one. -/
def ofHistory (unlocks : Unlocks) (options : Options) (history : List Change) : Atlas :=
  (empty unlocks options).replay history

/-- The atlas after the locations that some keys resolve to have been picked up. -/
def pickUpAll (a : Atlas) (order : List Key) : Atlas := a.replay (order.map .pickUp)

/-- Whether a change is not refused. -/
def takes (a : Atlas) : Change → Bool
  | .add l => (a.add l).toOption.isSome
  | .place key item => (a.place key item).toOption.isSome
  | _ => true

/-- The changes of a history that are not refused where they are made. -/
def taken : Atlas → List Change → List Change
  | _, [] => []
  | a, change :: rest =>
    if a.takes change then change :: (a.after change).taken rest else a.taken rest

/-- Without any changes an atlas stays as it is. -/
@[simp] theorem replay_nil (a : Atlas) : a.replay [] = a := rfl

/-- The first change of a history is made first. -/
@[simp] theorem replay_cons (a : Atlas) (change : Change) (history : List Change) :
    a.replay (change :: history) = (a.after change).replay history := rfl

/-- A history may be replayed in two parts, cut anywhere. -/
theorem replay_append (a : Atlas) (first later : List Change) :
    a.replay (first ++ later) = (a.replay first).replay later :=
  List.foldl_append

/-- With no keys to pick up an atlas stays as it is. -/
@[simp] theorem pickUpAll_nil (a : Atlas) : a.pickUpAll [] = a := rfl

/-- The first key of an order is picked up first. -/
@[simp] theorem pickUpAll_cons (a : Atlas) (key : Key) (order : List Key) :
    a.pickUpAll (key :: order) = (a.after (.pickUp key)).pickUpAll order := rfl

/-- A change that is refused leaves the atlas as it was. -/
theorem after_of_not_takes {a : Atlas} {change : Change} (refused : a.takes change = false) :
    a.after change = a := by
  cases change with
  | add l =>
    rw [takes, Option.isSome_eq_false_iff, Option.isNone_iff_eq_none] at refused
    rw [after, refused, Option.getD_none]
  | place key item =>
    rw [takes, Option.isSome_eq_false_iff, Option.isNone_iff_eq_none] at refused
    rw [after, refused, Option.getD_none]
  | pickUp key => cases refused
  | resume save => cases refused
  | setGoal goal => cases refused

/-- The changes that are not refused lead to the same atlas by themselves. -/
theorem replay_taken (a : Atlas) (history : List Change) :
    a.replay (a.taken history) = a.replay history := by
  induction history generalizing a with
  | nil => rfl
  | cons change rest ih =>
    rw [taken]
    split
    · rw [replay_cons, replay_cons, ih]
    · rename_i refused
      rw [replay_cons, after_of_not_takes (Bool.eq_false_iff.mpr refused), ih]

/-- A property that every change keeps holds wherever a history leads from where it holds. -/
theorem replay_induction {holds : Atlas → Prop} {history : List Change} {a : Atlas}
    (start : holds a) (kept : ∀ b, ∀ change ∈ history, holds b → holds (b.after change)) :
    holds (a.replay history) := by
  induction history generalizing a with
  | nil => exact start
  | cons change rest ih =>
    have first := kept a change List.mem_cons_self start
    exact ih first fun b later member => kept b later (List.mem_cons_of_mem change member)

end Atlas

end ItemLogic
