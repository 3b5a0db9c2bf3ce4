import ItemLogic.Capability.Basic

/-!
# Sets of capabilities

A set is a mask with one bit per capability, so the universe is closed by the
type and every operation is a bit operation. `CapSet.bits` and `CapSet.ofBits`
exchange a set with the 64-bit word in which tools store it; a word may have
bits that stand for nothing, and reading it drops them.
-/

namespace ItemLogic

/-- A set of capabilities: bit `i` of the mask stands for the capability of index `i`. -/
structure CapSet where
  mask : BitVec Capability.count
  deriving DecidableEq

namespace CapSet

/-- Nothing held. -/
instance : EmptyCollection CapSet := ⟨⟨0⟩⟩

instance : Inhabited CapSet := ⟨∅⟩

instance : Membership Capability CapSet :=
  ⟨fun s c => s.mask.getLsbD c.index = true⟩

instance (c : Capability) (s : CapSet) : Decidable (c ∈ s) :=
  inferInstanceAs (Decidable (s.mask.getLsbD c.index = true))

instance : Singleton Capability CapSet :=
  ⟨fun c => ⟨BitVec.twoPow Capability.count c.index⟩⟩

instance : Union CapSet := ⟨fun s t => ⟨s.mask ||| t.mask⟩⟩

instance : Insert Capability CapSet := ⟨fun c s => {c} ∪ s⟩

/-- A set is contained in another when intersecting the masks gives it back. -/
instance : HasSubset CapSet := ⟨fun s t => t.mask &&& s.mask = s.mask⟩

instance (s t : CapSet) : Decidable (s ⊆ t) :=
  inferInstanceAs (Decidable (t.mask &&& s.mask = s.mask))

/-- Every capability there is. -/
def full : CapSet := ⟨BitVec.allOnes Capability.count⟩

/-- The number of capabilities in a set. -/
def size (s : CapSet) : Nat := s.mask.cpop.toNat

/-- Whether a set holds exactly one capability: it is not empty, and clearing
    its lowest bit leaves nothing. -/
def isSingle (s : CapSet) : Bool :=
  s.mask != 0 && s.mask &&& (s.mask - 1) == 0

/-- The members of a set, in order of declaration. -/
def members (s : CapSet) : List Capability := Capability.all.filter (· ∈ s)

/-- The single-member sets that make up a set, in order of declaration. -/
def decompose (s : CapSet) : List CapSet := s.members.map ({·})

/-- The union of a list of sets. -/
def unionAll (sets : List CapSet) : CapSet := sets.foldl (· ∪ ·) ∅

/-- The set of the capabilities in a list. -/
def ofList (caps : List Capability) : CapSet := caps.foldl (fun s c => s ∪ {c}) ∅

/-- The 64-bit word of a set. -/
def bits (s : CapSet) : UInt64 :=
  s.members.foldl (fun word c => word ||| (1 <<< UInt64.ofNat c.place)) 0

/-- The set of a 64-bit word; bits that stand for no capability are dropped. -/
def ofBits (word : UInt64) : CapSet :=
  ofList (Capability.all.filter fun c => word &&& (1 <<< UInt64.ofNat c.place) != 0)

/-- Sets are ordered by their words. -/
instance : Ord CapSet := ⟨fun s t => compare s.bits t.bits⟩

/-- Two sets with the same members are the same set. -/
theorem ext_members {s t : CapSet} (same : ∀ c : Capability, c ∈ s ↔ c ∈ t) : s = t := by
  obtain ⟨a⟩ := s
  obtain ⟨b⟩ := t
  congr 1
  apply BitVec.eq_of_getLsbD_eq
  intro i bounded
  obtain ⟨c, found⟩ := Capability.exists_index ⟨i, bounded⟩
  have := same c
  simp only [Membership.mem, found] at this
  exact Bool.eq_iff_iff.mpr this

/-- Nothing is a member of the empty set. -/
@[simp] theorem not_mem_empty (c : Capability) : ¬ c ∈ (∅ : CapSet) := by
  simp [Membership.mem, EmptyCollection.emptyCollection]

/-- The members of a union are the members of either side. -/
@[simp] theorem mem_union {c : Capability} {s t : CapSet} : c ∈ s ∪ t ↔ c ∈ s ∨ c ∈ t := by
  simp [Membership.mem, Union.union]

/-- The one member of a singleton is the capability that it was made of. -/
@[simp] theorem mem_singleton {c d : Capability} : c ∈ ({d} : CapSet) ↔ c = d := by
  have bounded := d.index.isLt
  rw [← Capability.index_inj, Fin.ext_iff]
  simp only [Membership.mem, Singleton.singleton, BitVec.getLsbD_twoPow]
  simp only [bounded, decide_true, Bool.true_and, decide_eq_true_eq]
  exact eq_comm

/-- Inserting a capability adds it to the members and takes none away. -/
@[simp] theorem mem_insert {c d : Capability} {s : CapSet} :
    c ∈ (insert d s : CapSet) ↔ c = d ∨ c ∈ s := by
  change c ∈ ({d} ∪ s : CapSet) ↔ _
  simp

/-- Containment is containment of members. -/
theorem subset_iff {s t : CapSet} : s ⊆ t ↔ ∀ c : Capability, c ∈ s → c ∈ t := by
  constructor
  · intro contained c member
    have bit := congrArg (fun m => m.getLsbD c.index) (show t.mask &&& s.mask = s.mask from contained)
    simp only [BitVec.getLsbD_and] at bit
    simp only [Membership.mem] at member ⊢
    rw [member, Bool.and_true] at bit
    exact bit
  · intro contained
    have same : (⟨t.mask &&& s.mask⟩ : CapSet) = s := by
      apply ext_members
      intro c
      have := contained c
      simp only [Membership.mem, BitVec.getLsbD_and, Bool.and_eq_true] at this ⊢
      exact ⟨And.right, fun member => ⟨this member, member⟩⟩
    exact congrArg CapSet.mask same

/-- The list of members has every member, and nothing else. -/
@[simp] theorem mem_members {c : Capability} {s : CapSet} : c ∈ s.members ↔ c ∈ s := by
  simp [members, Capability.mem_all]

end CapSet

end ItemLogic
