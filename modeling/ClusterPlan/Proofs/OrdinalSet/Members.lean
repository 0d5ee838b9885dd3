import ClusterPlan.OrdinalSet.Basic

/-!
Sets of ordinals through their members: inclusion, emptiness, unions, and the fact that two sets
with the same members are the same set.
-/

namespace ClusterPlan

namespace Range

/-- Of two ranges of a canonical list one lies before the other, unless they are the same. -/
theorem eq_or_before {l : List Range} (hl : l.Pairwise Before) {r s : Range}
    (hr : r ∈ l) (hs : s ∈ l) : r = s ∨ r.Before s ∨ s.Before r := by
  induction l with
  | nil => cases hr
  | cons q rest ih =>
      obtain ⟨hq, hrest⟩ := List.pairwise_cons.1 hl
      rcases List.mem_cons.1 hr with hrq | hr <;> rcases List.mem_cons.1 hs with hsq | hs
      · exact Or.inl (hrq.trans hsq.symm)
      · exact Or.inr (Or.inl (hrq ▸ hq s hs))
      · exact Or.inr (Or.inr (hsq ▸ hq r hr))
      · exact ih hrest hr hs

/-- Members of the tail of a canonical list lie above its first range. -/
theorem above_of_mem_tail {r : Range} {l : List Range} (h : (r :: l).Pairwise Before) {o : Nat}
    (ho : ∃ s ∈ l, o ∈ s) : r.hi + 1 < o := by
  obtain ⟨s, hs, hos⟩ := ho
  have hrs : r.hi + 1 < s.lo := (List.pairwise_cons.1 h).1 s hs
  have : s.lo ≤ o := hos.1
  omega

theorem lo_mem (r : Range) : r.lo ∈ r := ⟨Nat.le_refl _, r.lo_le_hi⟩

/-- The first ranges of two canonical lists over the same ordinals end alike. -/
theorem hi_le_of_same_members {r s : Range} {l m : List Range} (hl : (r :: l).Pairwise Before)
    (hlo : r.lo = s.lo)
    (h : ∀ o, (∃ q ∈ s :: m, o ∈ q) → ∃ q ∈ r :: l, o ∈ q) : s.hi ≤ r.hi := by
  by_cases hlt : r.hi < s.hi
  · have hrs := r.lo_le_hi
    have hin : r.hi + 1 ∈ s := ⟨by omega, hlt⟩
    obtain ⟨q, hq, hoq⟩ := h (r.hi + 1) ⟨s, by simp, hin⟩
    rcases List.mem_cons.1 hq with rfl | hq
    · have := hoq.2
      omega
    · have := above_of_mem_tail hl ⟨q, hq, hoq⟩
      omega
  · omega

theorem lo_le_of_same_members {r s : Range} {l m : List Range} (hm : (s :: m).Pairwise Before)
    (h : ∀ o, (∃ q ∈ r :: l, o ∈ q) → ∃ q ∈ s :: m, o ∈ q) : s.lo ≤ r.lo := by
  obtain ⟨q, hq, hoq⟩ := h r.lo ⟨r, by simp, r.lo_mem⟩
  rcases List.mem_cons.1 hq with rfl | hq
  · exact hoq.1
  · have := above_of_mem_tail hm ⟨q, hq, hoq⟩
    have := s.lo_le_hi
    omega

theorem eq_of_bounds {r s : Range} (hlo : r.lo = s.lo) (hhi : r.hi = s.hi) : r = s := by
  cases r
  cases s
  cases hlo
  cases hhi
  rfl

/-- A canonical list is determined by the ordinals it covers. -/
theorem list_eq_of_same_members {l m : List Range} (hl : l.Pairwise Before)
    (hm : m.Pairwise Before) (h : ∀ o, (∃ r ∈ l, o ∈ r) ↔ ∃ r ∈ m, o ∈ r) : l = m := by
  induction l generalizing m with
  | nil =>
      cases m with
      | nil => rfl
      | cons s m =>
          obtain ⟨q, hq, _⟩ := (h s.lo).2 ⟨s, by simp, s.lo_mem⟩
          cases hq
  | cons r l ih =>
      cases m with
      | nil =>
          obtain ⟨q, hq, _⟩ := (h r.lo).1 ⟨r, by simp, r.lo_mem⟩
          cases hq
      | cons s m =>
          have hlo : r.lo = s.lo :=
            Nat.le_antisymm (lo_le_of_same_members hl fun o => (h o).2)
              (lo_le_of_same_members hm fun o => (h o).1)
          have hhi : r.hi = s.hi :=
            Nat.le_antisymm (hi_le_of_same_members hm hlo.symm fun o => (h o).1)
              (hi_le_of_same_members hl hlo fun o => (h o).2)
          have hrs : r = s := eq_of_bounds hlo hhi
          subst hrs
          rw [ih (List.pairwise_cons.1 hl).2 (List.pairwise_cons.1 hm).2 ?_]
          intro o
          constructor
          · intro ho
            have := above_of_mem_tail hl ho
            obtain ⟨q, hq, hoq⟩ := ho
            obtain ⟨q', hq', hoq'⟩ := (h o).1 ⟨q, List.mem_cons_of_mem _ hq, hoq⟩
            rcases List.mem_cons.1 hq' with rfl | hq'
            · have := hoq'.2
              omega
            · exact ⟨q', hq', hoq'⟩
          · intro ho
            have := above_of_mem_tail hm ho
            obtain ⟨q, hq, hoq⟩ := ho
            obtain ⟨q', hq', hoq'⟩ := (h o).2 ⟨q, List.mem_cons_of_mem _ hq, hoq⟩
            rcases List.mem_cons.1 hq' with rfl | hq'
            · have := hoq'.2
              omega
            · exact ⟨q', hq', hoq'⟩

end Range

namespace OrdinalSet

theorem ext_mem {a b : OrdinalSet} (h : ∀ o, o ∈ a ↔ o ∈ b) : a = b := by
  cases a with
  | mk l hl =>
      cases b with
      | mk m hm =>
          have : l = m := Range.list_eq_of_same_members hl hm h
          subst this
          rfl

theorem isEmpty_iff {s : OrdinalSet} : s.isEmpty = true ↔ ∀ o, o ∉ s := by
  cases s with
  | mk l hl =>
      cases l with
      | nil =>
          simp only [isEmpty, List.isEmpty_nil, true_iff]
          rintro o ⟨r, hr, _⟩
          cases hr
      | cons r rest =>
          simp only [isEmpty, List.isEmpty_cons, Bool.false_eq_true, false_iff]
          intro h
          exact h r.lo ⟨r, by simp, r.lo_mem⟩

theorem subset_iff {a b : OrdinalSet} : a.subset b = true ↔ ∀ o ∈ a, o ∈ b := by
  simp only [subset, List.all_eq_true, List.any_eq_true, decide_eq_true_eq]
  constructor
  · rintro h o ⟨r, hr, ho⟩
    obtain ⟨s, hs, hrs⟩ := h r hr
    exact ⟨s, hs, Nat.le_trans hrs.1 ho.1, Nat.le_trans ho.2 hrs.2⟩
  · intro h r hr
    obtain ⟨s, hs, hlo⟩ := h r.lo ⟨r, hr, r.lo_mem⟩
    refine ⟨s, hs, hlo.1, ?_⟩
    by_cases hle : r.hi ≤ s.hi
    · exact hle
    -- The ordinal right above `s` would lie in another range, which leaves a gap to `s`.
    · have hsr : s.hi + 1 ∈ r := ⟨by have := hlo.2; omega, by omega⟩
      obtain ⟨q, hq, hoq⟩ := h (s.hi + 1) ⟨r, hr, hsr⟩
      have := hoq.1
      have := hoq.2
      have := s.lo_le_hi
      rcases Range.eq_or_before b.apart hs hq with hb | hb | hb
      · subst hb
        omega
      · simp only [Range.Before] at hb
        omega
      · simp only [Range.Before] at hb
        omega

theorem mem_foldl_union {sets : List OrdinalSet} {s : OrdinalSet} {o : Nat} :
    o ∈ sets.foldl union s ↔ o ∈ s ∨ ∃ t ∈ sets, o ∈ t := by
  induction sets generalizing s with
  | nil => simp
  | cons t rest ih =>
      have hu : o ∈ s.union t ↔ o ∈ s ∨ o ∈ t := mem_union
      simp only [List.foldl_cons, ih, hu, List.mem_cons, exists_eq_or_imp, or_assoc]

@[simp] theorem mem_unionAll {sets : List OrdinalSet} {o : Nat} :
    o ∈ unionAll sets ↔ ∃ t ∈ sets, o ∈ t := by
  simp [unionAll, mem_foldl_union]

@[simp] theorem mem_single {o p : Nat} : p ∈ single o ↔ p = o := by
  simp [single]

@[simp] theorem mem_toList {s : OrdinalSet} {o : Nat} : o ∈ s.toList ↔ o ∈ s := by
  simp only [toList, List.mem_flatMap, Range.mem_toList, mem_def]

end OrdinalSet
end ClusterPlan
