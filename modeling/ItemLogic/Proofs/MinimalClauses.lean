import ItemLogic.Gate.Lemmas
import Mathlib.Data.List.Induction
import Mathlib.Data.List.Nodup
import Mathlib.Data.List.Pairwise

/-!
# Products keep the minimal clauses

The conjunction of two gates of several clauses keeps exactly those unions of their clauses
that contain no other union, each once, in order of size and, within one size, of first
occurrence in the product.

One pass from left to right suffices because a clause that lies strictly inside another is
smaller and so stands before it. A clause that comes a second time contains its own first
occurrence, so what is kept stands in the order of first occurrences. Nothing is assumed of
the clauses: they may be empty, occur repeatedly or contain each other.
-/

namespace ItemLogic.Gate

/-! ### Ordering by size -/

/-- Ordering by size is to list the clauses of each size in turn. -/
theorem bySize_eq_flatMap (clauses : List CapSet) :
    bySize clauses =
      (List.range (Capability.count + 1)).flatMap fun n => clauses.filter (·.size = n) := by
  rw [bySize]
  congr 1
  funext n
  rw [List.filterMap_map, ← List.filterMap_eq_filter]
  refine List.filterMap_congr fun c _ => ?_
  simp [Option.guard]

/-- Smaller clauses come first. -/
theorem pairwise_size_bySize (clauses : List CapSet) :
    (bySize clauses).Pairwise fun c d => c.size ≤ d.size := by
  have size_of_mem {n : Nat} {c : CapSet} (member : c ∈ clauses.filter (·.size = n)) :
      c.size = n := of_decide_eq_true (List.mem_filter.mp member).2
  rw [bySize_eq_flatMap, List.pairwise_flatMap]
  constructor
  · intro n _
    refine List.pairwise_of_forall_mem_list fun c first d second => ?_
    exact Nat.le_of_eq ((size_of_mem first).trans (size_of_mem second).symm)
  · refine List.pairwise_lt_range.imp fun before c first d second => ?_
    rw [size_of_mem first, size_of_mem second]
    exact Nat.le_of_lt before

/-- Clauses of one size keep the order they came in. -/
theorem filter_size_bySize (clauses : List CapSet) {n : Nat} (bounded : n ≤ Capability.count) :
    (bySize clauses).filter (·.size = n) = clauses.filter (·.size = n) := by
  have upTo (k : Nat) :
      ((List.range k).flatMap fun m => clauses.filter (·.size = m)).filter (·.size = n) =
        if n < k then clauses.filter (·.size = n) else [] := by
    induction k with
    | zero => rfl
    | succ k ih =>
      rw [List.range_succ, List.flatMap_append, List.filter_append, ih, List.flatMap_singleton,
        List.filter_filter]
      by_cases here : n = k
      · subst here
        simp
      · have none : clauses.filter (fun c => decide (c.size = n) && decide (c.size = k)) = [] := by
          refine List.filter_eq_nil_iff.mpr fun c _ both => ?_
          obtain ⟨first, second⟩ := Bool.and_eq_true_iff.mp both
          exact here ((of_decide_eq_true first).symm.trans (of_decide_eq_true second))
        rw [none, List.append_nil]
        exact if_congr (by omega) rfl rfl
  rw [bySize_eq_flatMap, upTo, if_pos (by omega)]

/-- Elements that pass a filter occur in the same order before and after it. -/
theorem idxOf_filter_lt_iff {clauses : List CapSet} {p : CapSet → Bool} {c d : CapSet}
    (first : p c = true) (second : p d = true) :
    (clauses.filter p).idxOf c < (clauses.filter p).idxOf d ↔
      clauses.idxOf c < clauses.idxOf d := by
  induction clauses with
  | nil => simp
  | cons e rest ih =>
    by_cases kept : p e = true
    · rw [List.filter_cons_of_pos kept]
      simp only [List.idxOf_cons]
      cases e == c <;> cases e == d <;> simp [ih]
    · have other {c : CapSet} (passes : p c = true) : e ≠ c := fun same => kept (same ▸ passes)
      rw [List.filter_cons_of_neg kept, List.idxOf_cons_ne _ (other first),
        List.idxOf_cons_ne _ (other second), ih, Nat.succ_lt_succ_iff]

/-- Whether a clause goes before another: it is smaller, or of the same size and occurs
    earlier in the list. -/
def GoesBefore (clauses : List CapSet) (c d : CapSet) : Prop :=
  c.size < d.size ∨ c.size = d.size ∧ clauses.idxOf c < clauses.idxOf d

/-- The first occurrences in the order of size are ordered by size and then as they came in. -/
theorem goesBefore_of_idxOf_bySize_lt {clauses : List CapSet} {c d : CapSet}
    (member : d ∈ clauses) (before : (bySize clauses).idxOf c < (bySize clauses).idxOf d) :
    GoesBefore clauses c d := by
  have secondBound := List.idxOf_lt_length_of_mem (mem_bySize.mpr member)
  have firstBound := Nat.lt_trans before secondBound
  have ordered := List.pairwise_iff_getElem.mp (pairwise_size_bySize clauses) _ _
    firstBound secondBound before
  rw [List.getElem_idxOf firstBound, List.getElem_idxOf secondBound] at ordered
  rcases Nat.lt_or_eq_of_le ordered with smaller | same
  · exact .inl smaller
  · refine .inr ⟨same, ?_⟩
    have first : decide (c.size = d.size) = true := decide_eq_true same
    have second : decide (d.size = d.size) = true := decide_eq_true rfl
    rwa [← idxOf_filter_lt_iff (p := (·.size = d.size)) first second,
      filter_size_bySize clauses d.size_le, idxOf_filter_lt_iff first second] at before

/-! ### What one pass keeps -/

/-- One more clause at the end is weighed against what a pass has kept so far. -/
theorem foldl_keepIfNew_concat (clauses : List CapSet) (clause : CapSet) :
    (clauses ++ [clause]).foldl keepIfNew [] = keepIfNew (clauses.foldl keepIfNew []) clause := by
  rw [List.foldl_append]
  rfl

/-- Of the kept clauses none contains an earlier one. -/
theorem pairwise_not_subset_foldl (clauses : List CapSet) :
    (clauses.foldl keepIfNew []).Pairwise fun c d => ¬ c ⊆ d := by
  induction clauses using List.reverseRecOn with
  | nil => exact .nil
  | append_singleton clauses clause ih =>
    rw [foldl_keepIfNew_concat, keepIfNew]
    split
    · exact ih
    · rename_i new
      refine List.pairwise_append.mpr ⟨ih, List.pairwise_singleton _ _, ?_⟩
      intro c old d last
      obtain rfl := List.mem_singleton.mp last
      exact fun below => new (List.any_eq_true.mpr ⟨c, old, decide_eq_true below⟩)

/-- The kept clauses stand in the order of their first occurrences. -/
theorem pairwise_idxOf_foldl (clauses : List CapSet) :
    (clauses.foldl keepIfNew []).Pairwise fun c d => clauses.idxOf c < clauses.idxOf d := by
  induction clauses using List.reverseRecOn with
  | nil => exact .nil
  | append_singleton clauses clause ih =>
    have seen {c : CapSet} (kept : c ∈ clauses.foldl keepIfNew []) : c ∈ clauses :=
      (mem_of_mem_foldl_keepIfNew kept).resolve_left List.not_mem_nil
    have earlier : (clauses.foldl keepIfNew []).Pairwise fun c d =>
        (clauses ++ [clause]).idxOf c < (clauses ++ [clause]).idxOf d := by
      refine ih.imp_of_mem fun first second before => ?_
      rwa [List.idxOf_append_of_mem (seen first), List.idxOf_append_of_mem (seen second)]
    rw [foldl_keepIfNew_concat, keepIfNew]
    split
    · exact earlier
    · rename_i new
      -- A clause that has come before contains a kept one, so a new one has not.
      have fresh : clause ∉ clauses := by
        intro again
        obtain ⟨smaller, kept, below⟩ : ∃ smaller ∈ clauses.foldl keepIfNew [], smaller ⊆ clause :=
          exists_below_foldl_keepIfNew (.inr again)
        exact new (List.any_eq_true.mpr ⟨smaller, kept, decide_eq_true below⟩)
      refine List.pairwise_append.mpr ⟨earlier, List.pairwise_singleton _ _, ?_⟩
      intro c old d last
      obtain rfl := List.mem_singleton.mp last
      rw [List.idxOf_append_of_mem (seen old), List.idxOf_append_of_notMem fresh]
      exact Nat.lt_add_right _ (List.idxOf_lt_length_of_mem (seen old))

/-! ### Absorption -/

/-- Absorption keeps clauses in order of size and, within one size, of first occurrence. -/
theorem pairwise_goesBefore_absorb (clauses : List CapSet) :
    (absorb clauses).Pairwise (GoesBefore clauses) :=
  (pairwise_idxOf_foldl (bySize clauses)).imp_of_mem fun _ second before =>
    goesBefore_of_idxOf_bySize_lt (mem_of_mem_absorb second) before

/-- Absorption keeps no clause twice. -/
theorem nodup_absorb (clauses : List CapSet) : (absorb clauses).Nodup := by
  refine (pairwise_goesBefore_absorb clauses).imp fun before same => ?_
  subst same
  rcases before with smaller | ⟨_, earlier⟩
  · exact Nat.lt_irrefl _ smaller
  · exact Nat.lt_irrefl _ earlier

/-- Of two clauses that absorption keeps neither contains the other. -/
theorem eq_of_subset_of_mem_absorb {clauses : List CapSet} {c d : CapSet}
    (first : c ∈ absorb clauses) (second : d ∈ absorb clauses) (contained : c ⊆ d) : c = d := by
  have incomparable : (absorb clauses).Pairwise fun c d => ¬ c ⊆ d ∧ ¬ d ⊆ c := by
    have both := (pairwise_not_subset_foldl (bySize clauses)).and
      (pairwise_goesBefore_absorb clauses)
    refine both.imp fun {c d} related => ⟨related.1, fun below => ?_⟩
    obtain ⟨apart, before⟩ := related
    -- A clause strictly inside an earlier one would be smaller and so stand before it.
    have distinct : d ≠ c := fun same => apart (same ▸ CapSet.subset_refl c)
    have smaller := CapSet.size_lt_of_subset_of_ne below distinct
    rcases before with larger | ⟨same, _⟩ <;> omega
  by_contra distinct
  have : Std.Symm fun c d : CapSet => ¬ c ⊆ d ∧ ¬ d ⊆ c := ⟨fun _ _ => And.symm⟩
  exact (incomparable.forall first second distinct).1 contained

/-- Absorption keeps exactly the minimal clauses. -/
theorem mem_absorb_iff {clauses : List CapSet} {clause : CapSet} :
    clause ∈ absorb clauses ↔
      clause ∈ clauses ∧ ∀ other ∈ clauses, other ⊆ clause → other = clause := by
  constructor
  · intro kept
    refine ⟨mem_of_mem_absorb kept, fun other member below => ?_⟩
    obtain ⟨smaller, least, inside⟩ := exists_below_absorb member
    have same : smaller = clause :=
      eq_of_subset_of_mem_absorb least kept (CapSet.subset_trans inside below)
    exact CapSet.subset_antisymm below (same ▸ inside)
  · rintro ⟨member, minimal⟩
    obtain ⟨smaller, least, inside⟩ := exists_below_absorb member
    exact minimal smaller (mem_of_mem_absorb least) inside ▸ least

/-! ### Conjunction -/

/-- Between gates of several clauses, conjunction is the product without what it absorbs. -/
theorem clauses_and_of_several {g h : Gate} (left : 2 ≤ g.clauses.length)
    (right : 2 ≤ h.clauses.length) :
    (g &&& h).clauses = absorb (product g.clauses h.clauses) := by
  change (g.and h).clauses = _
  rw [and]
  split
  · rename_i _ single
    simp [single] at right
  · rename_i _ single _
    simp [single] at left
  · rfl

/-- The clauses of the conjunction of two gates of several clauses are the minimal unions of
    their clauses, each once, by size and then by first occurrence in the product with the
    left gate outermost. Hence no clause contains another, and the gates may change sides up
    to the order of the clauses. -/
theorem and_keeps_minimal_unions (g h : Gate) (left : 2 ≤ g.clauses.length)
    (right : 2 ≤ h.clauses.length) :
    (∀ clause, clause ∈ (g &&& h).clauses ↔
        (∃ a ∈ g.clauses, ∃ b ∈ h.clauses, a ∪ b = clause) ∧
          ∀ a ∈ g.clauses, ∀ b ∈ h.clauses, a ∪ b ⊆ clause → a ∪ b = clause) ∧
      (g &&& h).clauses.Nodup ∧
      (g &&& h).clauses.Pairwise (GoesBefore (product g.clauses h.clauses)) ∧
      (∀ c ∈ (g &&& h).clauses, ∀ d ∈ (g &&& h).clauses, c ⊆ d → c = d) ∧
      (g &&& h).clauses.Perm (h &&& g).clauses := by
  have union_comm (a b : CapSet) : a ∪ b = b ∪ a :=
    CapSet.ext_members fun c => by simp [or_comm]
  have mirrored {clause : CapSet} :
      clause ∈ product g.clauses h.clauses ↔ clause ∈ product h.clauses g.clauses := by
    simp only [mem_product]
    constructor
    · rintro ⟨a, first, b, second, rfl⟩
      exact ⟨b, second, a, first, union_comm b a⟩
    · rintro ⟨b, second, a, first, rfl⟩
      exact ⟨a, first, b, second, union_comm a b⟩
  rw [clauses_and_of_several left right, clauses_and_of_several right left]
  refine ⟨fun clause => ?_, nodup_absorb _, pairwise_goesBefore_absorb _, ?_, ?_⟩
  · rw [mem_absorb_iff, mem_product]
    refine and_congr_right fun _ => ⟨?_, ?_⟩
    · intro minimal a first b second
      exact minimal (a ∪ b) (mem_product.mpr ⟨a, first, b, second, rfl⟩)
    · intro minimal other member
      obtain ⟨a, first, b, second, rfl⟩ := mem_product.mp member
      exact minimal a first b second
  · exact fun c first d second contained => eq_of_subset_of_mem_absorb first second contained
  · refine (List.perm_ext_iff_of_nodup (nodup_absorb _) (nodup_absorb _)).mpr fun clause => ?_
    simp only [mem_absorb_iff, mirrored]

/-- One of the first two cards, or both together. -/
def eitherLowCard : Gate := .anyOf {.cardA, .cardB} ||| .needs {.cardA, .cardB}

/-- One of the next two cards. -/
def eitherHighCard : Gate := .anyOf {.cardC, .cardD}

/-- Of the six unions of the two gates the four pairs are kept. They are of one size, so
    their order tells which gate was on the left. -/
theorem cardPairs_kept :
    2 ≤ eitherLowCard.clauses.length ∧ 2 ≤ eitherHighCard.clauses.length ∧
      (product eitherLowCard.clauses eitherHighCard.clauses).length = 6 ∧
      (eitherLowCard &&& eitherHighCard).clauses =
        [{.cardA, .cardC}, {.cardA, .cardD}, {.cardB, .cardC}, {.cardB, .cardD}] ∧
      (eitherHighCard &&& eitherLowCard).clauses =
        [{.cardA, .cardC}, {.cardB, .cardC}, {.cardA, .cardD}, {.cardB, .cardD}] ∧
      (eitherLowCard &&& eitherHighCard).clauses.Perm
        (eitherHighCard &&& eitherLowCard).clauses := by
  have left : 2 ≤ eitherLowCard.clauses.length := by decide +kernel
  have right : 2 ≤ eitherHighCard.clauses.length := by decide +kernel
  obtain ⟨_, _, _, _, rearranged⟩ :=
    and_keeps_minimal_unions eitherLowCard eitherHighCard left right
  exact ⟨left, right, by decide +kernel, by decide +kernel, by decide +kernel, rearranged⟩

end ItemLogic.Gate
