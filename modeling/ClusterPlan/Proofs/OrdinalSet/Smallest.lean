import ClusterPlan.Proofs.OrdinalSet.Members

/-!
The members of a set in ascending order, and `smallest?` as a front part of that list.
-/

namespace ClusterPlan

namespace Range

theorem length_toList (r : Range) : r.toList.length = r.size := by
  simp [toList]

theorem toList_ascending (r : Range) : r.toList.Pairwise (· < ·) := by
  simp only [toList]
  exact List.pairwise_lt_range'

theorem toList_front (r : Range) {n : Nat} (hn : n ≠ 0) (hlt : n < r.size) :
    (r.front n).toList = r.toList.take n := by
  have hsize : (r.front n).size = n := by
    simp only [size, front]
    omega
  rw [toList, hsize, toList, List.take_range'_of_length_ge (Nat.le_of_lt hlt)]
  rfl

end Range

namespace OrdinalSet

theorem length_toList (s : OrdinalSet) : s.toList.length = s.card := by
  simp only [toList, card]
  induction s.ranges with
  | nil => rfl
  | cons r rest ih =>
      simp only [List.flatMap_cons, List.length_append, Range.length_toList, List.map_cons,
        Number.total, ih]

theorem flatMap_toList_ascending {l : List Range} (h : l.Pairwise Range.Before) :
    (l.flatMap Range.toList).Pairwise (· < ·) := by
  induction l with
  | nil => simp
  | cons r rest ih =>
      simp only [List.flatMap_cons, List.pairwise_append]
      refine ⟨r.toList_ascending, ih (List.pairwise_cons.1 h).2, ?_⟩
      intro o ho p hp
      rw [Range.mem_toList] at ho
      obtain ⟨q, hq, hpq⟩ := List.mem_flatMap.1 hp
      have := Range.above_of_mem_tail h ⟨q, hq, Range.mem_toList.1 hpq⟩
      have := ho.2
      omega

theorem toList_ascending (s : OrdinalSet) : s.toList.Pairwise (· < ·) :=
  flatMap_toList_ascending s.apart

theorem toList_nodup (s : OrdinalSet) : s.toList.Nodup :=
  s.toList_ascending.imp fun h => Nat.ne_of_lt h

theorem flatMap_toList_frontRanges (l : List Range) (n : Nat) :
    (frontRanges l n).flatMap Range.toList = (l.flatMap Range.toList).take n := by
  induction l generalizing n with
  | nil => simp [frontRanges]
  | cons r rest ih =>
      simp only [frontRanges, List.flatMap_cons, List.take_append, Range.length_toList]
      by_cases hn : n = 0
      · simp [hn]
      · by_cases hlt : n < r.size
        · have hrest : n - r.size = 0 := by omega
          simp [hn, hlt, hrest, Range.toList_front r hn hlt]
        · have hall : r.toList.take n = r.toList :=
            List.take_of_length_le (by rw [Range.length_toList]; omega)
          simp [hn, hlt, hall, ih]

theorem smallest?_eq_none_iff {s : OrdinalSet} {n : Nat} : s.smallest? n = none ↔ s.card < n := by
  simp [smallest?]

theorem mem_smallest? {s t : OrdinalSet} {n : Nat} (h : s.smallest? n = some t) {o : Nat} :
    o ∈ t ↔ o ∈ s.toList.take n := by
  simp only [smallest?] at h
  split at h
  · cases h
  · cases h
    simp only [mem_ofRanges, toList, ← flatMap_toList_frontRanges, List.mem_flatMap,
      Range.mem_toList]

theorem le_card_of_smallest? {s t : OrdinalSet} {n : Nat} (h : s.smallest? n = some t) :
    n ≤ s.card := by
  simp only [smallest?] at h
  split at h
  · cases h
  · omega

end OrdinalSet
end ClusterPlan
