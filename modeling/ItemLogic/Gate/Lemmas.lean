import ItemLogic.Capability.Lemmas
import ItemLogic.Gate.Basic

/-!
# To whom gates open

Each way of building a gate, read as a condition on the held set. The condition
of a conjunction shows that ordering by size and leaving out clauses that contain
an earlier one never change who passes.
-/

namespace ItemLogic.Gate

/-- A gate opens to a held set exactly when one of its clauses lies inside the set. -/
theorem opens_iff {g : Gate} {held : CapSet} :
    g.opens held = true ↔ ∃ clause ∈ g.clauses, clause ⊆ held := by
  simp [opens]

/-- Who passes a gate still passes it with more in hand. -/
theorem opens_mono {g : Gate} {held more : CapSet} (contained : held ⊆ more)
    (opened : g.opens held = true) : g.opens more = true := by
  obtain ⟨clause, member, below⟩ := opens_iff.mp opened
  exact opens_iff.mpr ⟨clause, member, CapSet.subset_trans below contained⟩

/-- With everything in hand a gate is passed unless it has no clause at all. -/
theorem opens_full_iff {g : Gate} : g.opens .full = true ↔ g.clauses ≠ [] := by
  rw [opens_iff]
  constructor
  · rintro ⟨clause, member, _⟩
    exact List.ne_nil_of_mem member
  · intro filled
    obtain ⟨clause, member⟩ := List.exists_mem_of_ne_nil g.clauses filled
    exact ⟨clause, member, CapSet.subset_full clause⟩

/-- A free gate opens to everyone. -/
@[simp] theorem opens_free (held : CapSet) : free.opens held = true := by
  simp [opens, free]

/-- A gate that needs a set opens to those who hold all of it. -/
@[simp] theorem opens_needs (s held : CapSet) : (needs s).opens held = decide (s ⊆ held) := by
  simp [opens, needs]

/-- An alternative of two gates opens where one of them does. -/
@[simp] theorem opens_or (g h : Gate) (held : CapSet) :
    (g ||| h).opens held = (g.opens held || h.opens held) := by
  change (g.or h).opens held = _
  simp [opens, or]

/-- A gate that requires a set on top opens where it did before, to those who hold the set as
    well. -/
@[simp] theorem opens_requiring (g : Gate) (s held : CapSet) :
    (g.requiring s).opens held = (g.opens held && decide (s ⊆ held)) := by
  rw [Bool.eq_iff_iff, Bool.and_eq_true, decide_eq_true_eq, opens_iff, opens_iff]
  constructor
  · rintro ⟨_, member, contained⟩
    obtain ⟨clause, present, rfl⟩ := List.mem_map.mp member
    obtain ⟨below, held⟩ := CapSet.union_subset_iff.mp contained
    exact ⟨⟨clause, present, below⟩, held⟩
  · rintro ⟨⟨clause, present, below⟩, held⟩
    exact ⟨clause ∪ s, List.mem_map_of_mem present, CapSet.union_subset_iff.mpr ⟨below, held⟩⟩

/-- A gate of alternatives opens to those who hold one of them, and to everyone where there is
    nothing to choose from. -/
theorem opens_anyOf {s held : CapSet} :
    (anyOf s).opens held = true ↔ s = ∅ ∨ ∃ c : Capability, c ∈ s ∧ c ∈ held := by
  by_cases nothing : s = ∅
  · simp [anyOf, nothing]
  · rw [opens_iff]
    simp only [anyOf, nothing, if_false, CapSet.decompose, List.mem_map, CapSet.mem_members,
      false_or]
    constructor
    · rintro ⟨_, ⟨c, member, rfl⟩, contained⟩
      exact ⟨c, member, CapSet.singleton_subset_iff.mp contained⟩
    · rintro ⟨c, member, held⟩
      exact ⟨{c}, ⟨c, member, rfl⟩, CapSet.singleton_subset_iff.mpr held⟩

/-- Ordering by size keeps the clauses. -/
@[simp] theorem mem_bySize {clause : CapSet} {clauses : List CapSet} :
    clause ∈ bySize clauses ↔ clause ∈ clauses := by
  have bounded := clause.size_le
  simp [bySize]
  omega

/-- A pass over some clauses keeps what was kept before and some of the clauses, and makes up no
    others. -/
theorem mem_of_mem_foldl_keepIfNew {clause : CapSet} {clauses kept : List CapSet}
    (member : clause ∈ clauses.foldl keepIfNew kept) : clause ∈ kept ∨ clause ∈ clauses := by
  induction clauses generalizing kept with
  | nil => exact .inl member
  | cons c clauses ih =>
    rcases ih member with old | later
    · rw [keepIfNew] at old
      split at old
      · exact .inl old
      · rcases List.mem_append.mp old with old | new
        · exact .inl old
        · exact .inr (List.mem_cons.mpr (.inl (List.mem_singleton.mp new)))
    · exact .inr (List.mem_cons_of_mem _ later)

/-- Whatever is kept or still to come has a kept clause below it. -/
theorem exists_below_foldl_keepIfNew {clause : CapSet} {clauses kept : List CapSet}
    (member : clause ∈ kept ∨ clause ∈ clauses) :
    ∃ smaller ∈ clauses.foldl keepIfNew kept, smaller ⊆ clause := by
  induction clauses generalizing kept clause with
  | nil => exact ⟨clause, by simpa using member, CapSet.subset_refl _⟩
  | cons c clauses ih =>
    have stays : ∀ d ∈ kept, d ∈ keepIfNew kept c := by
      intro d old
      rw [keepIfNew]
      split
      · exact old
      · exact List.mem_append_left _ old
    rcases member with old | new
    · exact ih (.inl (stays _ old))
    · rcases List.mem_cons.mp new with rfl | later
      · by_cases covered : kept.any (· ⊆ clause) = true
        · obtain ⟨smaller, old, contained⟩ := List.any_eq_true.mp covered
          obtain ⟨least, present, below⟩ := ih (.inl (stays _ old))
          exact ⟨least, present, CapSet.subset_trans below (of_decide_eq_true contained)⟩
        · exact ih (.inl (by simp [keepIfNew, covered]))
      · exact ih (.inr later)

/-- Absorption keeps only clauses that are there. -/
theorem mem_of_mem_absorb {clause : CapSet} {clauses : List CapSet}
    (member : clause ∈ absorb clauses) : clause ∈ clauses := by
  rcases mem_of_mem_foldl_keepIfNew member with none | some
  · cases none
  · exact mem_bySize.mp some

/-- Absorption keeps a clause below every clause. -/
theorem exists_below_absorb {clause : CapSet} {clauses : List CapSet} (member : clause ∈ clauses) :
    ∃ smaller ∈ absorb clauses, smaller ⊆ clause :=
  exists_below_foldl_keepIfNew (.inr (mem_bySize.mpr member))

/-- The clauses of a product are the unions of a clause from each side. -/
theorem mem_product {clause : CapSet} {left right : List CapSet} :
    clause ∈ product left right ↔ ∃ a ∈ left, ∃ b ∈ right, a ∪ b = clause := by
  simp [product]

/-- Leaving out the clauses that contain an earlier one changes nobody's passing. -/
theorem opens_absorb (clauses : List CapSet) (held : CapSet) :
    (⟨absorb clauses⟩ : Gate).opens held = (⟨clauses⟩ : Gate).opens held := by
  rw [Bool.eq_iff_iff, opens_iff, opens_iff]
  constructor
  · rintro ⟨clause, member, contained⟩
    exact ⟨clause, mem_of_mem_absorb member, contained⟩
  · rintro ⟨clause, member, contained⟩
    obtain ⟨smaller, present, below⟩ := exists_below_absorb member
    exact ⟨smaller, present, CapSet.subset_trans below contained⟩

/-- A product opens to those who pass both sides. -/
theorem opens_product (g h : Gate) (held : CapSet) :
    (⟨product g.clauses h.clauses⟩ : Gate).opens held = (g.opens held && h.opens held) := by
  rw [Bool.eq_iff_iff, Bool.and_eq_true, opens_iff, opens_iff, opens_iff]
  constructor
  · rintro ⟨clause, member, contained⟩
    obtain ⟨a, left, b, right, rfl⟩ := mem_product.mp member
    obtain ⟨first, second⟩ := CapSet.union_subset_iff.mp contained
    exact ⟨⟨a, left, first⟩, ⟨b, right, second⟩⟩
  · rintro ⟨⟨a, left, first⟩, ⟨b, right, second⟩⟩
    exact ⟨a ∪ b, mem_product.mpr ⟨a, left, b, right, rfl⟩,
      CapSet.union_subset_iff.mpr ⟨first, second⟩⟩

/-- A conjunction of two gates opens exactly where both do. Leaving clauses out that contain
    others does not change that. -/
@[simp] theorem opens_and (g h : Gate) (held : CapSet) :
    (g &&& h).opens held = (g.opens held && h.opens held) := by
  change (g.and h).opens held = _
  rw [and]
  split
  · rename_i single found
    rw [opens_requiring]
    simp [opens, found]
  · rename_i single found _
    rw [opens_requiring]
    simp [opens, found, Bool.and_comm]
  · rw [opens_absorb, opens_product]

end ItemLogic.Gate
