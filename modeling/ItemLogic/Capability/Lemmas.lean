import ItemLogic.Capability.Set

/-!
# Laws of capability sets

Containment is a partial order with a least and a greatest set, and the union is
the least upper bound. Every law is read off the members, and the size of a set
counts them, so a set strictly inside another is smaller.
-/

namespace ItemLogic.CapSet

/-- Sets are equal exactly when they have the same members. -/
theorem ext_iff {s t : CapSet} : s = t ↔ ∀ c : Capability, c ∈ s ↔ c ∈ t :=
  ⟨fun same _ => same ▸ Iff.rfl, ext_members⟩

/-- A set without members is empty. -/
theorem exists_mem_of_ne_empty {s : CapSet} (filled : s ≠ ∅) : ∃ c : Capability, c ∈ s := by
  refine Classical.byContradiction fun none => filled (ext_members fun c => ?_)
  exact ⟨fun member => absurd ⟨c, member⟩ none, fun member => absurd member (not_mem_empty c)⟩

/-- Every set contains itself. -/
@[simp] theorem subset_refl (s : CapSet) : s ⊆ s := subset_iff.mpr fun _ member => member

/-- What is contained in a part is contained in the whole. -/
theorem subset_trans {s t u : CapSet} (first : s ⊆ t) (second : t ⊆ u) : s ⊆ u :=
  subset_iff.mpr fun c member => subset_iff.mp second c (subset_iff.mp first c member)

/-- Sets that contain each other are equal. -/
theorem subset_antisymm {s t : CapSet} (below : s ⊆ t) (above : t ⊆ s) : s = t :=
  ext_members fun c => ⟨subset_iff.mp below c, subset_iff.mp above c⟩

/-- The empty set is contained in every set. -/
@[simp] theorem empty_subset (s : CapSet) : ∅ ⊆ s :=
  subset_iff.mpr fun c member => absurd member (not_mem_empty c)

/-- Every capability is a member of the full set. -/
@[simp] theorem mem_full (c : Capability) : c ∈ full := by
  simp [Membership.mem, full]

/-- The full set contains every set. -/
@[simp] theorem subset_full (s : CapSet) : s ⊆ full := subset_iff.mpr fun c _ => mem_full c

/-- A union contains its left side. -/
theorem subset_union_left (s t : CapSet) : s ⊆ s ∪ t :=
  subset_iff.mpr fun _ member => mem_union.mpr (.inl member)

/-- A union contains its right side. -/
theorem subset_union_right (s t : CapSet) : t ⊆ s ∪ t :=
  subset_iff.mpr fun _ member => mem_union.mpr (.inr member)

/-- A set is above a union exactly when it is above both sides. -/
@[simp] theorem union_subset_iff {s t u : CapSet} : s ∪ t ⊆ u ↔ s ⊆ u ∧ t ⊆ u := by
  constructor
  · intro contained
    exact ⟨subset_trans (subset_union_left s t) contained,
      subset_trans (subset_union_right s t) contained⟩
  · rintro ⟨left, right⟩
    exact subset_iff.mpr fun c member =>
      (mem_union.mp member).elim (subset_iff.mp left c) (subset_iff.mp right c)

/-- To contain a single capability is to have it as a member. -/
theorem singleton_subset_iff {c : Capability} {s : CapSet} : ({c} : CapSet) ⊆ s ↔ c ∈ s := by
  simp [subset_iff]

/-- A set has no more members than there are capabilities. -/
theorem size_le (s : CapSet) : s.size ≤ Capability.count := BitVec.toNat_cpop_le s.mask

/-- A population count counts the places of the bits. -/
theorem toNat_cpop_eq_countP {width : Nat} (x : BitVec width) :
    x.cpop.toNat = (List.range width).countP (x.getLsbD ·) := by
  have counted (n : Nat) : x.cpopNatRec n 0 = (List.range n).countP (x.getLsbD ·) := by
    induction n with
    | zero => rfl
    | succ n ih =>
      rw [BitVec.cpopNatRec_succ, BitVec.cpopNatRec_eq, ih, List.range_succ, List.countP_append]
      cases bit : x.getLsbD n <;> simp [bit]
  rw [BitVec.toNat_cpop, counted]

/-- The size of a set is the number of its members. -/
theorem size_eq_length_members (s : CapSet) : s.size = s.members.length := by
  have indices : List.range Capability.count = Capability.all.map (·.index.val) := rfl
  rw [size, toNat_cpop_eq_countP, indices, List.countP_map, members, ← List.countP_eq_length_filter]
  refine List.countP_congr fun c _ => ?_
  simp [Membership.mem]

/-- The members of a set stand in order among those of a larger one. -/
theorem members_sublist {s t : CapSet} (contained : s ⊆ t) : s.members.Sublist t.members := by
  have nested : t.members.filter (· ∈ s) = s.members := by
    rw [members, members, List.filter_filter]
    refine List.filter_congr fun c _ => ?_
    have := subset_iff.mp contained c
    by_cases member : c ∈ s <;> simp_all
  exact nested ▸ List.filter_sublist

/-- A set that is contained in a different one has fewer members. -/
theorem size_lt_of_subset_of_ne {s t : CapSet} (contained : s ⊆ t) (distinct : s ≠ t) :
    s.size < t.size := by
  rw [size_eq_length_members, size_eq_length_members]
  have ordered := members_sublist contained
  refine Nat.lt_of_le_of_ne ordered.length_le fun same => distinct ?_
  have equal : s.members = t.members := ordered.eq_of_length same
  exact ext_members fun c => by rw [← mem_members, equal, mem_members]

/-- A union that is gathered up from a start has the members of the start and of every set that is
    added. -/
private theorem mem_foldl_union {c : Capability} {sets : List CapSet} {start : CapSet} :
    c ∈ sets.foldl (· ∪ ·) start ↔ c ∈ start ∨ ∃ s ∈ sets, c ∈ s := by
  induction sets generalizing start with
  | nil => simp
  | cons s sets ih => simp [ih, or_assoc]

/-- The members of a union of a list are the members of its sets. -/
@[simp] theorem mem_unionAll {c : Capability} {sets : List CapSet} :
    c ∈ unionAll sets ↔ ∃ s ∈ sets, c ∈ s := by
  simp [unionAll, mem_foldl_union]

/-- Adding capabilities one after the other adds all of them. -/
theorem mem_foldl_add {c : Capability} {caps : List Capability} {s : CapSet} :
    c ∈ caps.foldl (fun s c => s ∪ {c}) s ↔ c ∈ s ∨ c ∈ caps := by
  induction caps generalizing s with
  | nil => simp
  | cons d caps ih => simp [ih, or_assoc]

/-- A union of several sets is the first set united with the union of the others. -/
theorem unionAll_cons (s : CapSet) (sets : List CapSet) :
    unionAll (s :: sets) = s ∪ unionAll sets :=
  ext_members fun c => by simp

end ItemLogic.CapSet
