import ClusterPlan.Proofs.OrdinalSet.Smallest
import Mathlib.Data.Finset.Card
import Mathlib.Data.List.Sort

/-!
Cutting off the least members of a set. What `smallest?` gives is told from the members alone: for each
number of members there is at most one set that has this many and leaves out none below them. Counting
in machine words, with ordinals of 32 bits and numbers of 64, cuts at the same place.
-/

namespace ClusterPlan

namespace OrdinalSet

variable {s t u : OrdinalSet} {n o : Nat}

/-- The members as a finite set. -/
def members (s : OrdinalSet) : Finset Nat := ⟨s.toList, s.toList_nodup⟩

@[simp] theorem mem_members : o ∈ s.members ↔ o ∈ s := mem_toList

theorem card_members (s : OrdinalSet) : s.members.card = s.card := s.length_toList

/-- `t` has `n` members of `s`, and each of them is below all members left out. -/
structure CutFrom (t s : OrdinalSet) (n : Nat) : Prop where
  inside : t.members ⊆ s.members
  count : t.members.card = n
  least : ∀ o ∈ t, ∀ p ∈ s, p ∉ t → o < p

/-- Two cuts of one size cannot each have a member that the other leaves out. -/
theorem CutFrom.subset (ht : t.CutFrom s n) (hu : u.CutFrom s n) : t.members ⊆ u.members := by
  by_contra hnot
  obtain ⟨o, hot, hou⟩ := Finset.not_subset.1 hnot
  have hback : ¬ u.members ⊆ t.members := fun hsub =>
    hnot (Finset.eq_of_subset_of_card_le hsub (by rw [ht.count, hu.count])).ge
  obtain ⟨p, hpu, hpt⟩ := Finset.not_subset.1 hback
  rw [mem_members] at hot hou hpu hpt
  have hop : o < p := ht.least o hot p (mem_members.1 (hu.inside (mem_members.2 hpu))) hpt
  have hpo : p < o := hu.least p hpu o (mem_members.1 (ht.inside (mem_members.2 hot))) hou
  omega

theorem CutFrom.unique (ht : t.CutFrom s n) (hu : u.CutFrom s n) : t = u := by
  have heq : t.members = u.members := (ht.subset hu).antisymm (hu.subset ht)
  exact ext_mem fun o => by rw [← mem_members, heq, mem_members]

/-- What is cut off stands at the front of the list of members. -/
theorem toList_of_smallest? (h : s.smallest? n = some t) : t.toList = s.toList.take n := by
  refine List.Pairwise.eq_of_mem_iff t.toList_ascending
    (s.toList_ascending.sublist (List.take_sublist n _)) fun o => ?_
  rw [mem_toList, mem_smallest? h]

theorem cutFrom_of_smallest? (h : s.smallest? n = some t) : t.CutFrom s n where
  inside o ho := by
    rw [mem_members, mem_smallest? h] at ho
    exact mem_toList.2 (mem_toList.1 (List.mem_of_mem_take ho))
  count := by
    rw [card_members, ← length_toList, toList_of_smallest? h, List.length_take, length_toList]
    exact Nat.min_eq_left (le_card_of_smallest? h)
  least o ho p hp hpt := by
    have hsplit := s.toList_ascending
    rw [← List.take_append_drop n s.toList, List.pairwise_append] at hsplit
    rw [mem_smallest? h] at ho hpt
    have hback : p ∈ s.toList.drop n := by
      have hmem := mem_toList.2 hp
      rw [← List.take_append_drop n s.toList, List.mem_append] at hmem
      exact hmem.resolve_left hpt
    exact hsplit.2.2 o ho p hback

theorem smallest?_eq_some_iff : s.smallest? n = some t ↔ t.CutFrom s n := by
  refine ⟨cutFrom_of_smallest?, fun ht => ?_⟩
  cases hs : s.smallest? n with
  | none =>
      have hlt : s.card < n := smallest?_eq_none_iff.1 hs
      have hle : n ≤ s.card := by
        rw [← ht.count, ← card_members]
        exact Finset.card_le_card ht.inside
      omega
  | some u => rw [(cutFrom_of_smallest? hs).unique ht]

/-- Of ordinals up to a bound there are at most as many as numbers up to it. -/
theorem card_le_of_forall_le {bound : Nat} (h : ∀ o ∈ s, o ≤ bound) : s.card ≤ bound + 1 := by
  have hsub : s.members ⊆ Finset.range (bound + 1) := by
    intro o ho
    rw [mem_members] at ho
    exact Finset.mem_range.2 (Nat.lt_succ_of_le (h o ho))
  rw [← card_members, ← Finset.card_range (bound + 1)]
  exact Finset.card_le_card hsub

end OrdinalSet

section Words

namespace Range

variable {r : Range}

def bounds (r : Range) : Nat × Nat := (r.lo, r.hi)

/-- The bounds as words. -/
def words (r : Range) : UInt32 × UInt32 := (.ofNat r.lo, .ofNat r.hi)

/-- The numbers that two words stand for. -/
def numbers (w : UInt32 × UInt32) : Nat × Nat := (w.1.toNat, w.2.toNat)

/-- The size, with the difference taken in 32 bits and the rest in 64. -/
def sizeWord (r : Range) : UInt64 := (r.words.2 - r.words.1).toUInt64 + 1

/-- The leading ranges, the last of them cut short, with what is still to be taken counted in words. -/
def frontWords : List Range → UInt64 → List (UInt32 × UInt32)
  | [], _ => []
  | r :: rest, n =>
      if n = 0 then []
      else if r.sizeWord ≤ n then r.words :: frontWords rest (n - r.sizeWord)
      else [(r.words.1, r.words.1 + (n - 1).toUInt32)]

theorem toNat_words (h : r.hi ≤ Number.greatestCount) :
    r.words.1.toNat = r.lo ∧ r.words.2.toNat = r.hi := by
  have hle := r.lo_le_hi
  simp only [Number.greatestCount] at h
  exact ⟨UInt32.toNat_ofNat_of_lt' (by simp only [UInt32.size]; omega),
    UInt32.toNat_ofNat_of_lt' (by simp only [UInt32.size]; omega)⟩

theorem numbers_words (h : r.hi ≤ Number.greatestCount) : numbers r.words = r.bounds :=
  Prod.ext (toNat_words h).1 (toNat_words h).2

theorem toNat_sizeWord (h : r.hi ≤ Number.greatestCount) : r.sizeWord.toNat = r.size := by
  obtain ⟨hlo, hhi⟩ := toNat_words h
  have hle := r.lo_le_hi
  have hdiff : (r.words.2 - r.words.1).toNat = r.hi - r.lo := by
    rw [UInt32.toNat_sub_of_le _ _ (by rw [UInt32.le_iff_toNat_le, hlo, hhi]; exact hle), hlo, hhi]
  simp only [Number.greatestCount] at h
  rw [sizeWord, UInt64.toNat_add, UInt32.toNat_toUInt64, hdiff, UInt64.toNat_one, size]
  omega

/-- A cut inside a range stays below its upper bound, so that no word overflows. -/
theorem numbers_front {n : UInt64} (h : r.hi ≤ Number.greatestCount) (hn : n ≠ 0)
    (hlt : n.toNat < r.size) :
    numbers (r.words.1, r.words.1 + (n - 1).toUInt32) = (r.front n.toNat).bounds := by
  have hpos : 0 < n.toNat := Nat.pos_of_ne_zero fun hzero => hn (UInt64.toNat_inj.1 hzero)
  have hless : (n - 1).toNat = n.toNat - 1 := by
    rw [UInt64.toNat_sub_of_le _ _ (by rw [UInt64.le_iff_toNat_le, UInt64.toNat_one]; omega),
      UInt64.toNat_one]
  simp only [Number.greatestCount] at h
  simp only [size] at hlt
  refine Prod.ext (toNat_words h).1 ?_
  have hsum : (r.words.1 + (n - 1).toUInt32).toNat = r.lo + (n.toNat - 1) := by
    rw [UInt32.toNat_add, UInt64.toNat_toUInt32, (toNat_words h).1, hless]
    omega
  exact hsum

theorem frontWords_eq {l : List Range} (h : ∀ r ∈ l, r.hi ≤ Number.greatestCount) (n : UInt64) :
    (frontWords l n).map numbers = (OrdinalSet.frontRanges l n.toNat).map bounds := by
  induction l generalizing n with
  | nil => rfl
  | cons r rest ih =>
      obtain ⟨hr, hrest⟩ := List.forall_mem_cons.1 h
      have hsize := toNat_sizeWord hr
      simp only [frontWords, OrdinalSet.frontRanges]
      by_cases hn : n = 0
      · simp [hn]
      · have hn' : n.toNat ≠ 0 := fun hzero => hn (UInt64.toNat_inj.1 hzero)
        have hfits : r.sizeWord ≤ n ↔ r.size ≤ n.toNat := by rw [UInt64.le_iff_toNat_le, hsize]
        rw [if_neg hn, if_neg hn']
        by_cases hlt : n.toNat < r.size
        · have hover : ¬ r.sizeWord ≤ n := mt hfits.1 (Nat.not_le.2 hlt)
          rw [if_neg hover, if_pos hlt, List.map_singleton, List.map_singleton,
            numbers_front hr hn hlt]
        · have hwhole : r.sizeWord ≤ n := hfits.2 (Nat.not_lt.1 hlt)
          have hsub : (n - r.sizeWord).toNat = n.toNat - r.size := by
            rw [UInt64.toNat_sub_of_le _ _ hwhole, hsize]
          rw [if_pos hwhole, if_neg hlt, List.map_cons, List.map_cons, ih hrest, hsub,
            numbers_words hr]

end Range

namespace OrdinalSet

variable {s : OrdinalSet}

/-- The number of members, added up in words. -/
def cardWord (s : OrdinalSet) : UInt64 := (s.ranges.map Range.sizeWord).foldr (· + ·) 0

/-- The `n` smallest members as ranges of words. -/
def smallestWords? (s : OrdinalSet) (n : UInt64) : Option (List (UInt32 × UInt32)) :=
  if s.cardWord < n then none else some (Range.frontWords s.ranges n)

theorem toNat_total_sizeWord {l : List Range} (h : ∀ r ∈ l, r.hi ≤ Number.greatestCount)
    (hfits : Number.total (l.map Range.size) ≤ Number.greatestWord) :
    ((l.map Range.sizeWord).foldr (· + ·) 0).toNat = Number.total (l.map Range.size) := by
  induction l with
  | nil => rfl
  | cons r rest ih =>
      obtain ⟨hr, hrest⟩ := List.forall_mem_cons.1 h
      simp only [List.map_cons, Number.total, List.foldr_cons] at hfits ⊢
      rw [UInt64.toNat_add, Range.toNat_sizeWord hr, ih hrest (by omega)]
      simp only [Number.greatestWord] at hfits
      omega

theorem exists_lo_of_mem_frontRanges {l : List Range} {n : Nat} {q : Range}
    (h : q ∈ frontRanges l n) : ∃ r ∈ l, q.lo = r.lo := by
  induction l generalizing n with
  | nil => cases h
  | cons r rest ih =>
      simp only [frontRanges] at h
      split at h
      · cases h
      · split at h
        · rw [List.mem_singleton] at h
          exact ⟨r, List.mem_cons_self, by rw [h, Range.front]⟩
        · rcases List.mem_cons.1 h with rfl | h
          · exact ⟨q, List.mem_cons_self, rfl⟩
          · obtain ⟨p, hp, hlo⟩ := ih h
            exact ⟨p, List.mem_cons_of_mem _ hp, hlo⟩

theorem apart_frontRanges {l : List Range} (h : l.Pairwise Range.Before) (n : Nat) :
    (frontRanges l n).Pairwise Range.Before := by
  induction l generalizing n with
  | nil => exact .nil
  | cons r rest ih =>
      obtain ⟨hr, hrest⟩ := List.pairwise_cons.1 h
      simp only [frontRanges]
      split
      · exact .nil
      · split
        · exact List.pairwise_singleton ..
        · refine List.pairwise_cons.2 ⟨fun q hq => ?_, ih hrest _⟩
          obtain ⟨p, hp, hlo⟩ := exists_lo_of_mem_frontRanges hq
          have hbefore := hr p hp
          simp only [Range.Before] at hbefore ⊢
          omega

/-- Ranges that leave gaps between them are kept as they are. -/
theorem ranges_ofRanges {l : List Range} (h : l.Pairwise Range.Before) : (ofRanges l).ranges = l :=
  Range.list_eq_of_same_members (ofRanges l).apart h fun _ => mem_ofRanges

theorem hi_le_of_forall_le {bound : Nat} (h : ∀ o ∈ s, o ≤ bound) : ∀ r ∈ s.ranges, r.hi ≤ bound :=
  fun r hr => h r.hi ⟨r, hr, r.lo_le_hi, Nat.le_refl _⟩

theorem toNat_cardWord (h : ∀ o ∈ s, o ≤ Number.greatestCount) : s.cardWord.toNat = s.card := by
  have hle : s.card ≤ Number.greatestCount + 1 := card_le_of_forall_le h
  exact toNat_total_sizeWord (hi_le_of_forall_le h) (hle.trans (by decide))

theorem smallestWords?_eq (h : ∀ o ∈ s, o ≤ Number.greatestCount) (n : UInt64) :
    (s.smallestWords? n).map (List.map Range.numbers) =
      (s.smallest? n.toNat).map fun t => t.ranges.map Range.bounds := by
  simp only [smallestWords?, smallest?, UInt64.lt_iff_toNat_lt, toNat_cardWord h]
  split
  · rfl
  · rw [Option.map_some, Option.map_some, Range.frontWords_eq (hi_le_of_forall_le h),
      ranges_ofRanges (apart_frontRanges s.apart _)]

end OrdinalSet

end Words

/-- A set gives up its `n` least members exactly if it has so many, and what is cut off is the one part
of it with `n` members that are all below the others. Words of 32 and 64 bits are enough for it. -/
theorem OrdinalSet.smallest?_exact (s : OrdinalSet) (n : Nat) :
    (s.smallest? n = none ↔ s.members.card < n) ∧
    (∀ t, s.smallest? n = some t ↔ t.CutFrom s n) ∧
    ((∀ o ∈ s, o ≤ Number.greatestCount) → n ≤ Number.greatestWord →
      (s.smallestWords? (.ofNat n)).map (List.map Range.numbers) =
        (s.smallest? n).map fun t => t.ranges.map Range.bounds) := by
  refine ⟨?_, fun t => smallest?_eq_some_iff, fun hordinals hcount => ?_⟩
  · rw [card_members]
    exact smallest?_eq_none_iff
  · have hn : (UInt64.ofNat n).toNat = n :=
      UInt64.toNat_ofNat_of_lt' (by simp only [Number.greatestWord, UInt64.size] at *; omega)
    rw [smallestWords?_eq hordinals, hn]

example : (OrdinalSet.ofPairs [(3, 4), (4294967294, 4294967295)]).smallestWords? 3 =
    some [(3, 4), (4294967294, 4294967294)] := by
  decide

end ClusterPlan
