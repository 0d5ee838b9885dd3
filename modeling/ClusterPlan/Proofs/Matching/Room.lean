import ClusterPlan.Proofs.Lists
import ClusterPlan.Proofs.Matching.Memory
import ClusterPlan.Proofs.Matching.Selection

/-!
When more room cannot make a choice fail. One part never fails for having more to choose from. Several
parts may: what an earlier one takes depends on what there is, so a candidate is only steady if its
parts do not compete for resources.
-/

namespace ClusterPlan

variable {A B : OrdinalSet}

theorem isSome_unionOfFirst? {n : Nat} {sets : List OrdinalSet} :
    (unionOfFirst? n sets).isSome = true ↔ n ≤ sets.length := by
  simp only [unionOfFirst?]
  split
  · simp only [Option.isSome_none, Bool.false_eq_true, false_iff]
    omega
  · simp only [Option.isSome_some, true_iff]
    omega

theorem length_filterMap_le {α β : Type} {p q : α → Option β} (xs : List α)
    (h : ∀ x ∈ xs, (p x).isSome = true → (q x).isSome = true) :
    (xs.filterMap p).length ≤ (xs.filterMap q).length := by
  simp only [List.length_filterMap_eq_countP]
  exact List.countP_mono_left h

namespace OrdinalSet

theorem card_le_card (h : ∀ o ∈ B, o ∈ A) : B.card ≤ A.card := by
  rw [← length_toList, ← length_toList]
  exact (toList_sublist h).length_le

theorem inter_subset_inter (h : ∀ o ∈ B, o ∈ A) (C : OrdinalSet) : ∀ o ∈ B ∩ C, o ∈ A ∩ C :=
  fun _ ho => mem_inter.2 ⟨h _ (mem_inter.1 ho).1, (mem_inter.1 ho).2⟩

end OrdinalSet

theorem isSome_pickBottom?_mono {l : GroupedLevel} (h : ∀ o ∈ B, o ∈ A)
    (hB : (l.pickBottom? B).isSome = true) : (l.pickBottom? A).isSome = true := by
  simp only [GroupedLevel.pickBottom?] at hB ⊢
  split
  · rename_i hid
    simp only [hid, if_true, OrdinalSet.smallest?] at hB ⊢
    have := OrdinalSet.card_le_card (OrdinalSet.inter_subset_inter h l.members)
    split at hB
    · cases hB
    · rw [if_neg (by omega)]
      rfl
  · rename_i hid
    simp only [hid, if_false, GroupedLevel.pickWhole?, isSome_unionOfFirst?] at hB ⊢
    refine hB.trans (filter_sublist_filter fun g _ hg => ?_).length_le
    exact OrdinalSet.subset_iff.2 fun o ho => h o (OrdinalSet.subset_iff.1 hg o ho)

/-- A group that is of use with less room is of use with more. -/
theorem isSome_pickWithin?_of {lower : List GroupedLevel} {g : OrdinalSet} (h : ∀ o ∈ B, o ∈ A)
    (hlower : (pickLevels? lower (g ∩ B)).isSome = true → (pickLevels? lower (g ∩ A)).isSome = true)
    (hB : (pickWithin? lower B g).isSome = true) : (pickWithin? lower A g).isSome = true := by
  simp only [pickWithin?] at hB ⊢
  split at hB
  · cases hB
  · rename_i hused
    have hroom : ¬ (g ∩ A).isEmpty = true := by
      rw [OrdinalSet.isEmpty_iff] at hused ⊢
      exact fun hnone => hused fun o ho =>
        hnone o (OrdinalSet.mem_inter.2
          ⟨(OrdinalSet.mem_inter.1 ho).1, h o (OrdinalSet.mem_inter.1 ho).2⟩)
    rw [if_neg hroom]
    exact hlower hB

theorem OrdinalSet.inter_subset_inter_left (h : ∀ o ∈ B, o ∈ A) (C : OrdinalSet) :
    ∀ o ∈ C ∩ B, o ∈ C ∩ A :=
  fun _ ho => mem_inter.2 ⟨(mem_inter.1 ho).1, h _ (mem_inter.1 ho).2⟩

theorem isSome_pickLevels?_mono {levels : List GroupedLevel} (h : ∀ o ∈ B, o ∈ A)
    (hB : (pickLevels? levels B).isSome = true) : (pickLevels? levels A).isSome = true := by
  induction levels generalizing A B with
  | nil => cases hB
  | cons level lower ih =>
      by_cases hcount : level.count = 0
      · simp [pickLevels?, hcount]
      · cases lower with
        | nil =>
            rw [pickLevels?, if_neg hcount] at hB ⊢
            exact isSome_pickBottom?_mono h hB
        | cons next lower =>
            rw [pickLevels?_cons_cons hcount, isSome_unionOfFirst?] at hB ⊢
            refine hB.trans (length_filterMap_le _ fun g _ => isSome_pickWithin?_of h ?_)
            exact ih (OrdinalSet.inter_subset_inter_left h g)

theorem CandidatePart.isSome_pick?_mono {p : CandidatePart} (h : ∀ o ∈ B, o ∈ A)
    (hB : (p.pick? B).isSome = true) : (p.pick? A).isSome = true :=
  isSome_pickLevels?_mono (OrdinalSet.inter_subset_inter h p.admissible) hB

/-- More room never makes the choice fail. -/
def Candidate.Steady (c : Candidate) : Prop :=
  ∀ A B : OrdinalSet, (∀ o ∈ B, o ∈ A) → (c.pick? B).isSome = true → (c.pick? A).isSome = true

/-- No resource is admissible for two parts. -/
def PartsApart (parts : List CandidatePart) : Prop :=
  parts.Pairwise fun p q => OrdinalSet.Disjoint p.admissible q.admissible

/-- Parts that are apart can be chosen for each by itself. -/
theorem isSome_pickEach?_iff {parts : List CandidatePart} (h : PartsApart parts) :
    (pickEach? parts A).isSome = true ↔ ∀ p ∈ parts, (p.pick? A).isSome = true := by
  induction parts generalizing A with
  | nil => simp [pickEach?]
  | cons p rest ih =>
      obtain ⟨happart, hrest⟩ := List.pairwise_cons.1 h
      rw [pickEach?, List.forall_mem_cons]
      cases hpick : p.pick? A with
      | none => simp
      | some chosen =>
          -- What the first part takes is of no use to the others.
          have hsame : ∀ q ∈ rest, q.pick? (A \ chosen) = q.pick? A := by
            intro q hq
            have hunused : (A \ chosen) ∩ q.admissible = A ∩ q.admissible := by
              apply OrdinalSet.ext_mem
              intro o
              simp only [OrdinalSet.mem_inter, OrdinalSet.mem_sdiff, and_assoc]
              refine and_congr_right fun _ => and_iff_right_of_imp fun hadmitted hchosen => ?_
              exact happart q hq o ((CandidatePart.served_of_pick? hpick).isAdmissible o hchosen)
                hadmitted
            rw [CandidatePart.pick?, hunused, ← CandidatePart.pick?]
          have hothers : (pickEach? rest (A \ chosen)).isSome = true ↔
              ∀ q ∈ rest, (q.pick? A).isSome = true := by
            rw [ih hrest]
            exact forall₂_congr fun q hq => by rw [hsame q hq]
          rw [← hothers]
          cases hsets : pickEach? rest (A \ chosen) with
          | none => simp [hsets]
          | some others => simp [hsets]

theorem Candidate.isSome_pick? (c : Candidate) :
    (c.pick? A).isSome = (pickEach? c.parts A).isSome := by
  rw [Candidate.pick?, Option.isSome_map]

theorem Candidate.steady_of_apart {c : Candidate} (h : PartsApart c.parts) : c.Steady := by
  intro A B hsub hB
  rw [isSome_pick?, isSome_pickEach?_iff h] at hB ⊢
  exact fun p hp => CandidatePart.isSome_pick?_mono hsub (hB p hp)

theorem Candidate.steady_of_singlePart {c : Candidate} (h : c.parts.length = 1) : c.Steady := by
  apply steady_of_apart
  obtain ⟨p, hp⟩ := List.length_eq_one_iff.1 h
  rw [hp]
  exact List.pairwise_singleton _ _

/-- The candidate of an alternative has as many parts, and the walltime of the alternative. -/
theorem Catalog.candidate_eq_ok {c : Catalog} {jobFilter : Option String} {a : Alternative}
    {found : Candidate} (h : c.candidate jobFilter a = .ok found) :
    0 < a.walltime ∧ a.walltime ≤ Time.lastInstant ∧ found.id = a.id ∧
      found.walltime = a.walltime ∧ found.parts.length = a.parts.length := by
  simp only [Catalog.candidate] at h
  cases hfault : a.fault? with
  | some e =>
      rw [hfault] at h
      cases h
  | none =>
      rw [hfault] at h
      obtain ⟨hpositive, hbounded, _⟩ := fault?_eq_none_iff.1 hfault
      cases hparts : a.parts.mapM (c.matchPart jobFilter) with
      | error e =>
          rw [hparts] at h
          cases h
      | ok parts =>
          rw [hparts] at h
          obtain ⟨rfl, _⟩ := checkCandidate_eq_ok_iff.1 h
          exact ⟨hpositive, hbounded, rfl, rfl, (forall₂_of_mapM hparts).length_eq.symm⟩

end ClusterPlan
