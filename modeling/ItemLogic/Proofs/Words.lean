import ItemLogic.Capability.Lemmas
import ItemLogic.Capability.Text
import Mathlib.Data.List.Pairwise

/-!
# Sets as words

Tools exchange a set as a 64-bit word with one bit for each member. Some bits of a word stand
for nothing, and a word that has none of them is the word of just one set. Arithmetic on the
word then answers what is asked of the set: a bit test is membership, the population count is
the size, and clearing the lowest bit finds the sets of one member. The single flags of a set,
read off the table of capabilities, come in order of their bits and make the set up again.
-/

namespace ItemLogic

/-! ### Flags -/

namespace Capability

/-- The word with the bit of a capability. -/
def flag (c : Capability) : UInt64 := 1 <<< UInt64.ofNat c.place

/-- The words of single capabilities, in order of declaration. -/
def flags : List UInt64 := all.map flag

/-- The word of a capability has a single bit, at the place of the capability. -/
theorem toBitVec_flag (c : Capability) : c.flag.toBitVec = BitVec.twoPow 64 c.place := by
  cases c <;> rfl

/-- Every place lies in a word of 64 bits. -/
theorem place_lt (c : Capability) : c.place < 64 := by cases c <;> decide

/-- Places rise with the order of declaration. -/
theorem pairwise_place : all.Pairwise fun c d => c.place < d.place := by decide +kernel

/-- No two capabilities share a place. -/
theorem place_inj {c d : Capability} : c.place = d.place ↔ c = d := by
  refine ⟨fun same => ?_, fun same => same ▸ rfl⟩
  have apart : all.Pairwise fun c d => c.place ≠ d.place :=
    pairwise_place.imp fun before => Nat.ne_of_lt before
  have : Std.Symm fun c d : Capability => c.place ≠ d.place := ⟨fun _ _ => Ne.symm⟩
  by_contra distinct
  exact apart.forall (mem_all c) (mem_all d) distinct same

/-- The places of capabilities, among all places in a word. -/
theorem filter_range_place :
    (List.range 64).filter (fun i => all.any fun c => c.place == i) = all.map place := by
  decide +kernel

/-- A bit of the word of a capability is set at the place of the capability and nowhere else. -/
theorem getLsbD_flag (c : Capability) (i : Nat) :
    c.flag.toBitVec.getLsbD i = decide (c.place = i) := by
  rw [toBitVec_flag, BitVec.getLsbD_twoPow, decide_eq_true c.place_lt, Bool.true_and]

/-- The words of capabilities rise with their places. -/
theorem flag_lt_flag {c d : Capability} (before : c.place < d.place) : c.flag < d.flag := by
  have value (c : Capability) : c.flag.toNat = 2 ^ c.place := by
    rw [← UInt64.toNat_toBitVec, toBitVec_flag, BitVec.toNat_twoPow_of_lt c.place_lt]
  rw [UInt64.lt_iff_toNat_lt, value, value]
  exact Nat.pow_lt_pow_right (by decide) before

/-- No capability has the word zero. -/
theorem flag_ne_zero (c : Capability) : c.flag ≠ 0 := by cases c <;> decide

/-- What a word shares with a flag is the flag or nothing, as the bit is set or not. -/
theorem and_flag (word : UInt64) (c : Capability) :
    word &&& c.flag = if word.toBitVec.getLsbD c.place then c.flag else 0 := by
  rw [← UInt64.toBitVec_inj, UInt64.toBitVec_and, toBitVec_flag, BitVec.and_twoPow]
  split
  · exact c.toBitVec_flag.symm
  · rfl

/-- A word contains a flag exactly when it has the bit. -/
theorem and_flag_eq_iff {word : UInt64} {c : Capability} :
    word &&& c.flag = c.flag ↔ word.toBitVec.getLsbD c.place = true := by
  rw [and_flag]
  split <;> simp_all [c.flag_ne_zero.symm]

/-- A word shares something with a flag exactly when it has the bit. -/
theorem and_flag_ne_zero_iff {word : UInt64} {c : Capability} :
    word &&& c.flag ≠ 0 ↔ word.toBitVec.getLsbD c.place = true := by
  rw [and_flag]
  split <;> simp_all [c.flag_ne_zero]

end Capability

namespace CapSet

open Capability (flag flags)

/-! ### The bits of a word -/

/-- A word that is gathered up from flags has the bits of its start and one for each flag. -/
theorem getLsbD_foldl_flag {i : Nat} {caps : List Capability} {start : UInt64} :
    (caps.foldl (fun word c => word ||| flag c) start).toBitVec.getLsbD i =
      (start.toBitVec.getLsbD i || caps.any fun c => c.place == i) := by
  induction caps generalizing start with
  | nil => simp
  | cons c caps ih =>
    rw [List.foldl_cons, ih, UInt64.toBitVec_or, BitVec.getLsbD_or, Capability.getLsbD_flag,
      List.any_cons, Bool.or_assoc]
    rfl

/-- The bits of a word are at the places of the members. -/
theorem getLsbD_bits_iff {s : CapSet} {i : Nat} :
    s.bits.toBitVec.getLsbD i = true ↔ ∃ c ∈ s, c.place = i := by
  have folded : s.bits = s.members.foldl (fun word c => word ||| flag c) 0 := rfl
  rw [folded, getLsbD_foldl_flag]
  simp

/-- The bit of a capability says whether it is a member. -/
theorem getLsbD_bits_place_iff {s : CapSet} {c : Capability} :
    s.bits.toBitVec.getLsbD c.place = true ↔ c ∈ s := by
  simp [getLsbD_bits_iff, Capability.place_inj]

/-- Two words with the same bits are the same word. -/
theorem word_ext {v w : UInt64}
    (same : ∀ i, v.toBitVec.getLsbD i = true ↔ w.toBitVec.getLsbD i = true) : v = w :=
  UInt64.toBitVec_inj.mp (BitVec.eq_of_getLsbD_eq fun i _ => Bool.eq_iff_iff.mpr (same i))

/-- A word is read as the capabilities whose bits it has. -/
theorem mem_ofBits {word : UInt64} {c : Capability} :
    c ∈ ofBits word ↔ word.toBitVec.getLsbD c.place = true := by
  rw [ofBits, ofList, mem_foldl_add, ← Capability.and_flag_ne_zero_iff]
  simp [Capability.mem_all, flag]

/-- A set is read back from its word. -/
theorem ofBits_bits (s : CapSet) : ofBits s.bits = s :=
  ext_members fun _ => mem_ofBits.trans getLsbD_bits_place_iff

/-- A word that is read keeps the bits that stand for something. -/
theorem bits_ofBits (word : UInt64) : (ofBits word).bits = word &&& full.bits := by
  refine word_ext fun i => ?_
  rw [UInt64.toBitVec_and, BitVec.getLsbD_and, Bool.and_eq_true, getLsbD_bits_iff,
    getLsbD_bits_iff]
  constructor
  · rintro ⟨c, member, rfl⟩
    exact ⟨mem_ofBits.mp member, c, mem_full c, rfl⟩
  · rintro ⟨bit, c, _, rfl⟩
    exact ⟨c, mem_ofBits.mpr bit, rfl⟩

example : ofBits 0x8000000000080000 = {.gateMilitaryGate} := by decide +kernel

/-- The word of a single capability is its flag. -/
theorem bits_singleton (c : Capability) : ({c} : CapSet).bits = c.flag :=
  word_ext fun i => by simp [getLsbD_bits_iff, Capability.getLsbD_flag]

/-- The word of a union has the bits of both words. -/
theorem bits_union (s t : CapSet) : (s ∪ t).bits = s.bits ||| t.bits :=
  word_ext fun i => by simp [getLsbD_bits_iff, or_and_right, exists_or]

/-- Containment of sets is containment of their words. -/
theorem subset_iff_bits {s t : CapSet} : s ⊆ t ↔ t.bits &&& s.bits = s.bits := by
  rw [subset_iff]
  constructor
  · intro contained
    refine word_ext fun i => ?_
    rw [UInt64.toBitVec_and, BitVec.getLsbD_and, Bool.and_eq_true, and_iff_right_iff_imp,
      getLsbD_bits_iff, getLsbD_bits_iff]
    rintro ⟨c, member, place⟩
    exact ⟨c, contained c member, place⟩
  · intro contained c member
    have bit := getLsbD_bits_place_iff.mpr member
    rw [← contained, UInt64.toBitVec_and, BitVec.getLsbD_and, Bool.and_eq_true] at bit
    exact getLsbD_bits_place_iff.mp bit.1

/-- The population count of a word is the size of the set. -/
theorem toNat_cpop_bits (s : CapSet) : s.bits.toBitVec.cpop.toNat = s.size := by
  have placed : ∀ i ∈ List.range 64, (s.bits.toBitVec.getLsbD i &&
      Capability.all.any fun c => c.place == i) = true ↔ s.bits.toBitVec.getLsbD i = true := by
    intro i _
    rw [Bool.and_eq_true, and_iff_left_iff_imp, getLsbD_bits_iff]
    rintro ⟨c, _, place⟩
    exact List.any_eq_true.mpr ⟨c, c.mem_all, beq_iff_eq.mpr place⟩
  rw [toNat_cpop_eq_countP, ← List.countP_congr placed, ← List.countP_filter,
    Capability.filter_range_place, List.countP_map, size_eq_length_members, members,
    ← List.countP_eq_length_filter]
  exact List.countP_congr fun c _ => by simp [getLsbD_bits_place_iff]

/-! ### Single members -/

/-- A word has a single bit exactly when it is not zero and clearing its lowest bit leaves
    nothing. -/
theorem exists_eq_twoPow_iff {width : Nat} {x : BitVec width} :
    (∃ i < width, x = BitVec.twoPow width i) ↔ x ≠ 0 ∧ x &&& (x - 1) = 0 := by
  have bounded := x.isLt
  have power : x.toNat.isPowerOfTwo ↔ ∃ i < width, x = BitVec.twoPow width i := by
    constructor
    · rintro ⟨i, value⟩
      have small : i < width := (Nat.pow_lt_pow_iff_right (by decide)).mp (value ▸ bounded)
      exact ⟨i, small, BitVec.eq_of_toNat_eq (by rw [value, BitVec.toNat_twoPow_of_lt small])⟩
    · rintro ⟨i, small, rfl⟩
      exact ⟨i, BitVec.toNat_twoPow_of_lt small⟩
  rw [← power, ← Nat.ne_zero_and_sub_one_eq_zero_iff_isPowerOfTwo, ← BitVec.toNat_ne_iff_ne]
  refine and_congr_right fun filled => ?_
  have positive : 0 < x.toNat := Nat.pos_of_ne_zero filled
  have one : (1 : BitVec width).toNat = 1 :=
    (BitVec.toNat_ofNat 1 width).trans (Nat.mod_eq_of_lt (by omega))
  have less : (x - 1).toNat = x.toNat - 1 := by
    rw [BitVec.toNat_sub_of_le (by rwa [BitVec.le_def, one]), one]
  rw [← BitVec.toNat_inj, BitVec.toNat_and, less]
  rfl

/-- The test by arithmetic finds exactly the sets of one capability. -/
theorem isSingle_iff {s : CapSet} : s.isSingle = true ↔ ∃ c : Capability, s = {c} := by
  have mask (c : Capability) : s = {c} ↔ s.mask = BitVec.twoPow Capability.count c.index :=
    ⟨congrArg CapSet.mask, fun same => by cases s; cases same; rfl⟩
  rw [isSingle, Bool.and_eq_true, bne_iff_ne, beq_iff_eq, ← exists_eq_twoPow_iff]
  simp only [mask]
  constructor
  · rintro ⟨i, bounded, same⟩
    obtain ⟨c, found⟩ := Capability.exists_index ⟨i, bounded⟩
    exact ⟨c, by rw [same, found]⟩
  · rintro ⟨c, same⟩
    exact ⟨c.index, c.index.isLt, same⟩

/-- The test may be made on the word just as well: the places leave gaps, and none of them counts.
    -/
theorem isSingle_bits (s : CapSet) :
    s.isSingle = (s.bits != 0 && s.bits &&& (s.bits - 1) == 0) := by
  have word : (s.bits != 0 && s.bits &&& (s.bits - 1) == 0) = true ↔
      ∃ i < 64, s.bits.toBitVec = BitVec.twoPow 64 i := by
    rw [exists_eq_twoPow_iff, Bool.and_eq_true, bne_iff_ne, beq_iff_eq, ne_eq,
      ← UInt64.toBitVec_inj, ← UInt64.toBitVec_inj, UInt64.toBitVec_and, UInt64.toBitVec_sub]
    rfl
  rw [Bool.eq_iff_iff, word, isSingle_iff]
  constructor
  · rintro ⟨c, rfl⟩
    exact ⟨c.place, c.place_lt, by rw [bits_singleton, Capability.toBitVec_flag]⟩
  · rintro ⟨i, bounded, same⟩
    have bit : s.bits.toBitVec.getLsbD i = true := by rw [same]; simp [bounded]
    obtain ⟨c, _, rfl⟩ := getLsbD_bits_iff.mp bit
    refine ⟨c, ?_⟩
    rw [← ofBits_bits s, ← ofBits_bits {c}, bits_singleton,
      UInt64.toBitVec_inj.mp (same.trans c.toBitVec_flag.symm)]

/-! ### Flags of a set -/

/-- The parts of a set are the sets of one of its members each. -/
theorem mem_decompose {s part : CapSet} :
    part ∈ s.decompose ↔ ∃ c : Capability, c ∈ s ∧ part = {c} := by
  simp [decompose, eq_comm]

/-- Sets of one capability are equal only if the capability is the same. -/
theorem singleton_inj {c d : Capability} : ({c} : CapSet) = {d} ↔ c = d := by
  refine ⟨fun same => ?_, fun same => same ▸ rfl⟩
  exact mem_singleton.mp (same ▸ mem_singleton.mpr rfl)

/-- A capability by itself is a part of a set exactly when it is a member. -/
theorem singleton_mem_decompose {s : CapSet} {c : Capability} : {c} ∈ s.decompose ↔ c ∈ s := by
  simp [mem_decompose, singleton_inj]

/-- The single flags of a set come in order of their bits. -/
theorem pairwise_bits_decompose (s : CapSet) :
    s.decompose.Pairwise fun a b => a.bits < b.bits := by
  refine List.pairwise_map.mpr ((Capability.pairwise_place.filter (· ∈ s)).imp fun before => ?_)
  rw [bits_singleton, bits_singleton]
  exact Capability.flag_lt_flag before

/-- Every part of a set is a single flag. -/
theorem isSingle_of_mem_decompose {s part : CapSet} (listed : part ∈ s.decompose) :
    part.isSingle = true := by
  obtain ⟨c, _, rfl⟩ := mem_decompose.mp listed
  exact isSingle_iff.mpr ⟨c, rfl⟩

/-- A set has as many parts as members. -/
theorem length_decompose (s : CapSet) : s.decompose.length = s.size := by
  rw [decompose, List.length_map, size_eq_length_members]

/-- The single flags of a set make the set up. -/
theorem unionAll_decompose (s : CapSet) : unionAll s.decompose = s :=
  ext_members fun c => by simp [decompose]

/-- A set is contained in another exactly when all its parts are parts of the other. -/
theorem subset_iff_forall_mem_decompose {r s : CapSet} :
    s ⊆ r ↔ ∀ part ∈ s.decompose, part ∈ r.decompose := by
  rw [subset_iff]
  constructor
  · intro contained part listed
    obtain ⟨c, member, rfl⟩ := mem_decompose.mp listed
    exact singleton_mem_decompose.mpr (contained c member)
  · intro listed c member
    exact singleton_mem_decompose.mp (listed _ (singleton_mem_decompose.mpr member))

/-! ### Words that stand for sets -/

/-- Whether every bit of a word stands for a capability. -/
def IsKnown (word : UInt64) : Prop := full.bits &&& word = word

/-- The flags that a word contains, in the order of the table. -/
def flagsIn (word : UInt64) : List UInt64 := flags.filter fun flag => word &&& flag == flag

/-- A word stands for a set when arithmetic on the word answers what is asked of the set. -/
structure StandsFor (word : UInt64) (s : CapSet) : Prop where
  written : s.bits = word
  read : ofBits word = s
  split : s.decompose.map bits = flagsIn word
  single : s.isSingle = (word != 0 && word &&& (word - 1) == 0)
  counted : s.size = word.toBitVec.cpop.toNat
  contains (t : CapSet) : t ⊆ s ↔ word &&& t.bits = t.bits
  united (t : CapSet) : (s ∪ t).bits = word ||| t.bits

/-- The flags in the word of a set are those of its members. -/
theorem flagsIn_bits (s : CapSet) : flagsIn s.bits = s.members.map flag := by
  rw [flagsIn, flags, List.filter_map, members]
  refine congrArg (List.map flag) (List.filter_congr fun c _ => ?_)
  rw [Bool.eq_iff_iff, Function.comp_apply, beq_iff_eq, decide_eq_true_iff,
    Capability.and_flag_eq_iff, getLsbD_bits_place_iff]

/-- The words of the parts of a set are the flags in its word. -/
theorem map_bits_decompose (s : CapSet) : s.decompose.map bits = flagsIn s.bits := by
  rw [flagsIn_bits, decompose, List.map_map]
  exact List.map_congr_left fun c _ => bits_singleton c

/-- A set has a word that stands for it. -/
theorem standsFor_bits (s : CapSet) : StandsFor s.bits s where
  written := rfl
  read := ofBits_bits s
  split := map_bits_decompose s
  single := isSingle_bits s
  counted := (toNat_cpop_bits s).symm
  contains _ := subset_iff_bits
  united := bits_union s

/-- The words that have no bit without meaning are the words of sets. -/
theorem isKnown_iff {word : UInt64} : IsKnown word ↔ ∃ s : CapSet, s.bits = word := by
  constructor
  · intro known
    exact ⟨ofBits word, by rw [bits_ofBits, UInt64.and_comm, known]⟩
  · rintro ⟨s, rfl⟩
    exact subset_iff_bits.mp (subset_full s)

/-- The words that can be come by: nothing, one capability or all of them, any word cut down to
    its known bits, unions, what a text is read as, and the flags that a word contains. -/
inductive Obtainable : UInt64 → Prop
  | nothing : Obtainable 0
  | flag (c : Capability) : Obtainable c.flag
  | everything : Obtainable full.bits
  | truncated (word : UInt64) : Obtainable (word &&& full.bits)
  | union {v w : UInt64} (left : Obtainable v) (right : Obtainable w) : Obtainable (v ||| w)
  | parsed {text : String} {s : CapSet} (reads : parse text = .ok s) : Obtainable s.bits
  | part {word part : UInt64} (whole : Obtainable word) (listed : part ∈ flagsIn word) :
      Obtainable part

/-- No word with a bit that stands for nothing can be come by. -/
theorem Obtainable.isKnown {word : UInt64} (obtainable : Obtainable word) : IsKnown word := by
  rw [isKnown_iff]
  induction obtainable with
  | nothing => exact ⟨∅, rfl⟩
  | flag c => exact ⟨{c}, bits_singleton c⟩
  | everything => exact ⟨full, rfl⟩
  | truncated word => exact ⟨ofBits word, bits_ofBits word⟩
  | union _ _ left right =>
    obtain ⟨s, rfl⟩ := left
    obtain ⟨t, rfl⟩ := right
    exact ⟨s ∪ t, bits_union s t⟩
  | parsed reads => exact ⟨_, rfl⟩
  | part _ listed =>
    obtain ⟨c, _, rfl⟩ := List.mem_map.mp (List.mem_filter.mp listed).1
    exact ⟨{c}, bits_singleton c⟩

/-- The single flags of a set come in rising order of their bits, each of them single, as many
    as the set has members, and make the set up; a set contains another exactly when it has its
    flags. The words without a meaningless bit are those that stand for sets, so all of this is
    arithmetic on words; reading a word drops its other bits, and no word that has any can be come
    by. -/
theorem sets_split_into_flags :
    (∀ s : CapSet,
      s.decompose.Pairwise (fun a b => a.bits < b.bits) ∧
        (∀ part ∈ s.decompose, part.isSingle = true) ∧
        s.decompose.length = s.size ∧
        unionAll s.decompose = s) ∧
      (∀ r s : CapSet, s ⊆ r ↔ ∀ part ∈ s.decompose, part ∈ r.decompose) ∧
      (∀ word, IsKnown word ↔ ∃ s, StandsFor word s) ∧
      (∀ word, (ofBits word).bits = word &&& full.bits) ∧
      ∀ word, Obtainable word → IsKnown word := by
  refine ⟨fun s => ?_, fun _ _ => subset_iff_forall_mem_decompose, fun word => ?_, bits_ofBits,
    fun _ => Obtainable.isKnown⟩
  · exact ⟨pairwise_bits_decompose s, fun _ => isSingle_of_mem_decompose, length_decompose s,
      unionAll_decompose s⟩
  · rw [isKnown_iff]
    constructor
    · rintro ⟨s, rfl⟩
      exact ⟨s, standsFor_bits s⟩
    · rintro ⟨s, stands⟩
      exact ⟨s, stands.written⟩

end CapSet

end ItemLogic
