import ClusterPlan.Proofs.Matching.Honouring
import ClusterPlan.Proofs.Matching.Room

/-!
When less room does not change a choice. What was chosen is chosen again as long as all of it is there,
however much of the rest is gone: groups are tried in one order, and a group that is of no use with
more room is of no use with less.
-/

namespace ClusterPlan

variable {A B S : OrdinalSet}

theorem unionOfFirst?_of_take {n : Nat} {sets others : List OrdinalSet}
    (htake : others.take n = sets.take n) (h : unionOfFirst? n sets = some S) :
    unionOfFirst? n others = some S := by
  obtain ⟨hlen, hunion⟩ := unionOfFirst?_eq_some_iff.1 h
  refine unionOfFirst?_eq_some_iff.2 ⟨?_, by rw [htake]; exact hunion⟩
  have := congrArg List.length htake
  rw [List.length_take, List.length_take, Nat.min_eq_left hlen] at this
  omega

theorem subset_of_mem_take {n : Nat} {sets : List OrdinalSet} {g : OrdinalSet}
    (h : unionOfFirst? n sets = some S) (hg : g ∈ sets.take n) : ∀ o ∈ g, o ∈ S := by
  obtain ⟨_, rfl⟩ := unionOfFirst?_eq_some_iff.1 h
  exact fun o ho => OrdinalSet.mem_unionAll.2 ⟨g, hg, ho⟩

namespace OrdinalSet

/-- The members of a smaller set, listed. -/
theorem toList_eq_filter (h : ∀ o ∈ B, o ∈ A) :
    B.toList = A.toList.filterMap fun o => if o ∈ B then some o else none := by
  refine List.Pairwise.eq_of_mem_iff B.toList_ascending ?_ fun o => ?_
  · rw [List.pairwise_filterMap]
    refine A.toList_ascending.imp fun hlt => ?_
    grind
  · simp only [mem_toList, List.mem_filterMap]
    constructor
    · exact fun ho => ⟨o, h o ho, by simp [ho]⟩
    · rintro ⟨p, _, hp⟩
      split at hp
      · cases hp
        assumption
      · cases hp

theorem smallest?_of_between {n : Nat} (h : ∀ o ∈ B, o ∈ A) (hS : ∀ o ∈ S, o ∈ B)
    (hA : A.smallest? n = some S) : B.smallest? n = some S := by
  have htake : B.toList.take n = A.toList.take n := by
    have hall : A.toList = A.toList.filterMap some := by rw [List.filterMap_some]
    rw [toList_eq_filter h]
    conv_rhs => rw [hall]
    refine take_filterMap_eq nofun fun o _ p hp heq => ?_
    cases heq
    rw [← hall] at hp
    rw [if_pos (hS _ ((mem_smallest? hA).2 hp))]
  have hcard : n ≤ B.card := by
    have hle := le_card_of_smallest? hA
    have := congrArg List.length htake
    rw [List.length_take, List.length_take, length_toList, length_toList, Nat.min_eq_left hle] at this
    omega
  cases hB : B.smallest? n with
  | none =>
      rw [smallest?_eq_none_iff] at hB
      omega
  | some T =>
      rw [Option.some.injEq]
      refine ext_mem fun o => ?_
      rw [mem_smallest? hB, mem_smallest? hA, htake]

end OrdinalSet

section Levels

/-- A level that asks for something, of groups that have something. -/
structure GroupedLevel.Proper (l : GroupedLevel) : Prop where
  count : l.count ≠ 0
  inhabited : ∀ g ∈ l.groups, ∃ o, o ∈ g

theorem exists_mem_of_unionOfFirst? {n : Nat} {sets : List OrdinalSet} (hn : n ≠ 0)
    (hsets : ∀ g ∈ sets, ∃ o, o ∈ g) (h : unionOfFirst? n sets = some S) : ∃ o, o ∈ S := by
  obtain ⟨hlen, rfl⟩ := unionOfFirst?_eq_some_iff.1 h
  obtain ⟨g, hg⟩ := List.exists_mem_of_length_pos (l := sets.take n)
    (by rw [List.length_take]; omega)
  obtain ⟨o, ho⟩ := hsets g (List.mem_of_mem_take hg)
  exact ⟨o, OrdinalSet.mem_unionAll.2 ⟨g, hg, ho⟩⟩

theorem exists_mem_of_smallest? {n : Nat} (hn : n ≠ 0) (h : A.smallest? n = some S) :
    ∃ o, o ∈ S := by
  have hle := OrdinalSet.le_card_of_smallest? h
  obtain ⟨o, ho⟩ := List.exists_mem_of_length_pos (l := A.toList.take n)
    (by rw [List.length_take, OrdinalSet.length_toList]; omega)
  exact ⟨o, (OrdinalSet.mem_smallest? h).2 ho⟩

/-- Proper levels never choose nothing. -/
theorem exists_mem_of_pickLevels? {levels : List GroupedLevel} (hproper : ∀ l ∈ levels, l.Proper)
    (h : pickLevels? levels A = some S) : ∃ o, o ∈ S := by
  induction levels generalizing A S with
  | nil => cases h
  | cons level lower ih =>
      obtain ⟨hlevel, hlower⟩ := List.forall_mem_cons.1 hproper
      cases lower with
      | nil =>
          rw [pickLevels?, if_neg hlevel.count] at h
          simp only [List.isEmpty_nil, if_true, GroupedLevel.pickBottom?] at h
          split at h
          · exact exists_mem_of_smallest? hlevel.count h
          · exact exists_mem_of_unionOfFirst? hlevel.count
              (fun g hg => hlevel.inhabited g (List.mem_filter.1 hg).1) h
      | cons next lower =>
          rw [pickLevels?_cons_cons hlevel.count] at h
          refine exists_mem_of_unionOfFirst? hlevel.count (fun t ht => ?_) h
          obtain ⟨g, _, hg⟩ := List.mem_filterMap.1 ht
          exact ih hlower (pickWithin?_eq_some hg)

theorem pickBottom?_of_between {l : GroupedLevel} (h : ∀ o ∈ B, o ∈ A) (hS : ∀ o ∈ S, o ∈ B)
    (hA : l.pickBottom? A = some S) : l.pickBottom? B = some S := by
  simp only [GroupedLevel.pickBottom?] at hA ⊢
  split
  · rename_i hid
    rw [if_pos hid] at hA
    have hmembers : ∀ o ∈ S, o ∈ l.members := fun o ho => by
      have := OrdinalSet.mem_toList.1 (List.mem_of_mem_take ((OrdinalSet.mem_smallest? hA).1 ho))
      exact (OrdinalSet.mem_inter.1 this).2
    exact OrdinalSet.smallest?_of_between (OrdinalSet.inter_subset_inter h l.members)
      (fun o ho => OrdinalSet.mem_inter.2 ⟨hS o ho, hmembers o ho⟩) hA
  · rename_i hid
    rw [if_neg hid] at hA
    refine unionOfFirst?_of_take ?_ hA
    have hwhole := fun g hg => subset_of_mem_take (g := g) hA hg
    simp only [← List.filterMap_eq_filter] at hwhole ⊢
    refine take_filterMap_eq (fun g _ hnone => ?_) fun g _ t ht hsome => ?_
    · simp only [Option.guard_eq_none_iff] at hnone ⊢
      rw [Bool.eq_false_iff, ne_eq, OrdinalSet.subset_iff] at hnone ⊢
      exact fun hsub => hnone fun o ho => h o (hsub o ho)
    · obtain ⟨rfl, _⟩ := Option.guard_eq_some_iff.1 hsome
      exact Option.guard_eq_some_iff.2
        ⟨rfl, OrdinalSet.subset_iff.2 fun o ho => hS o (hwhole _ ht o ho)⟩

theorem pickLevels?_of_between {levels : List GroupedLevel} (hproper : ∀ l ∈ levels, l.Proper)
    (h : ∀ o ∈ B, o ∈ A) (hS : ∀ o ∈ S, o ∈ B) (hA : pickLevels? levels A = some S) :
    pickLevels? levels B = some S := by
  induction levels generalizing A B S with
  | nil => cases hA
  | cons level lower ih =>
      obtain ⟨hlevel, hlower⟩ := List.forall_mem_cons.1 hproper
      cases lower with
      | nil =>
          rw [pickLevels?, if_neg hlevel.count] at hA ⊢
          exact pickBottom?_of_between h hS hA
      | cons next lower =>
          rw [pickLevels?_cons_cons hlevel.count] at hA ⊢
          refine unionOfFirst?_of_take (take_filterMap_eq (fun g _ hnone => ?_)
            fun g _ t ht hsome => ?_) hA
          · rw [← Option.not_isSome_iff_eq_none] at hnone ⊢
            exact fun hsome => hnone (isSome_pickWithin?_of h
              (isSome_pickLevels?_mono (OrdinalSet.inter_subset_inter_left h g)) hsome)
          · have hchosen := pickWithin?_eq_some hsome
            have hinside := pickLevels?_subset hchosen
            have hleft : ∀ o ∈ t, o ∈ g ∩ B := fun o ho =>
              OrdinalSet.mem_inter.2
                ⟨(OrdinalSet.mem_inter.1 (hinside o ho)).1, hS o (subset_of_mem_take hA ht o ho)⟩
            obtain ⟨o, ho⟩ := exists_mem_of_pickLevels? hlower hchosen
            have hused : ¬ (g ∩ B).isEmpty = true := fun hempty =>
              OrdinalSet.isEmpty_iff.1 hempty o (hleft o ho)
            simp only [pickWithin?, hused]
            exact ih hlower (OrdinalSet.inter_subset_inter_left h g) hleft hchosen

end Levels

section Candidates

def CandidatePart.Proper (p : CandidatePart) : Prop := ∀ l ∈ p.levels, l.Proper

theorem CandidatePart.pick?_of_between {p : CandidatePart} (hproper : p.Proper)
    (h : ∀ o ∈ B, o ∈ A) (hS : ∀ o ∈ S, o ∈ B) (hA : p.pick? A = some S) : p.pick? B = some S :=
  pickLevels?_of_between hproper (OrdinalSet.inter_subset_inter h p.admissible)
    (fun o ho => OrdinalSet.mem_inter.2 ⟨hS o ho, (served_of_pick? hA).isAdmissible o ho⟩) hA

theorem pickEach?_of_between {parts : List CandidatePart} {sets : List OrdinalSet}
    (hproper : ∀ p ∈ parts, p.Proper) (h : ∀ o ∈ B, o ∈ A)
    (hS : ∀ S ∈ sets, ∀ o ∈ S, o ∈ B) (hA : pickEach? parts A = some sets) :
    pickEach? parts B = some sets := by
  induction parts generalizing A B sets with
  | nil => exact hA
  | cons p rest ih =>
      obtain ⟨hp, hrest⟩ := List.forall_mem_cons.1 hproper
      obtain ⟨chosen, others, hchosen, hothers, rfl⟩ := pickEach?_cons_eq_some hA
      obtain ⟨hfirst, hlater⟩ := List.forall_mem_cons.1 hS
      have hdisjoint := (List.pairwise_cons.1 (pickEach?_disjoint hA)).1
      have hagain : pickEach? rest (B \ chosen) = some others := by
        refine ih hrest (fun o ho => ?_) (fun T hT o ho => ?_) hothers
        · rw [OrdinalSet.mem_sdiff] at ho ⊢
          exact ⟨h o ho.1, ho.2⟩
        · exact OrdinalSet.mem_sdiff.2 ⟨hlater T hT o ho, fun hoc => hdisjoint T hT o hoc ho⟩
      rw [pickEach?, CandidatePart.pick?_of_between hp h hfirst hchosen]
      simp [hagain]

/-- A candidate that asks for something at each level. -/
def Candidate.Proper (c : Candidate) : Prop := ∀ p ∈ c.parts, p.Proper

/-- What a candidate chose it chooses again, with less to choose from but all of that. -/
theorem Candidate.pick?_of_between {c : Candidate} (hproper : c.Proper) (h : ∀ o ∈ B, o ∈ A)
    (hS : ∀ o ∈ S, o ∈ B) (hA : c.pick? A = some S) : c.pick? B = some S := by
  obtain ⟨sets, hsets, rfl⟩ := Option.map_eq_some_iff.1 hA
  rw [Candidate.pick?, pickEach?_of_between hproper h (fun T hT o ho =>
    hS o (OrdinalSet.mem_unionAll.2 ⟨T, hT, ho⟩)) hsets, Option.map_some]

theorem proper_of_isOf {cat : Catalog} {admissible : OrdinalSet} {l : GroupedLevel}
    (h : l.IsOf cat admissible) : l.Proper where
  count := h.count
  inhabited _ hg := Catalog.exists_mem_of_mem_groups (h.groups ▸ hg)

/-- The catalog answers with proper candidates. -/
theorem Catalog.proper_candidate {cat : Catalog} {jobFilter : Option String} {a : Alternative}
    {c : Candidate} (h : cat.candidate jobFilter a = .ok c) : c.Proper := by
  intro p hp l hl
  obtain ⟨part, _, hpart⟩ := exists_left_of_forall₂ (parts_of_candidate h) hp
  obtain ⟨_, _, hgroup⟩ := groupPart_of_matchPart hpart
  exact proper_of_isOf ((levels_of_groupPart hgroup).2.2 l hl)

/-- A candidate of the catalog never chooses nothing. -/
theorem Catalog.exists_mem_of_pick? {cat : Catalog} {jobFilter : Option String} {a : Alternative}
    {c : Candidate} (h : cat.candidate jobFilter a = .ok c) (hpick : c.pick? A = some S) :
    ∃ o, o ∈ S := by
  obtain ⟨sets, hsets, rfl⟩ := Option.map_eq_some_iff.1 hpick
  have hproper := proper_candidate h
  have hsomeParts : c.parts ≠ [] := by
    have hlen := (parts_of_candidate h).length_eq
    have hfault : a.fault? = none := by
      simp only [Catalog.candidate] at h
      split at h
      · cases h
      · assumption
    obtain ⟨_, _, hparts⟩ := fault?_eq_none_iff.1 hfault
    rw [← List.length_pos_iff] at hparts ⊢
    omega
  cases hcases : c.parts with
  | nil => exact absurd hcases hsomeParts
  | cons p rest =>
      rw [hcases] at hsets
      obtain ⟨chosen, others, hchosen, _, rfl⟩ := pickEach?_cons_eq_some hsets
      obtain ⟨o, ho⟩ := exists_mem_of_pickLevels? (hproper p (hcases ▸ List.mem_cons_self)) hchosen
      exact ⟨o, OrdinalSet.mem_unionAll.2 ⟨chosen, List.mem_cons_self, ho⟩⟩

end Candidates

/-- What is chosen with an answer of a matcher is chosen again with less to choose from, as long as all
of it is still there. -/
theorem pick?_of_shrunk {c : Catalog} {uses : List Matcher.Use}
    (hapart : Matcher.SnapshotsApart (c :: uses.map Matcher.Use.catalog))
    {jobFilter : Option String} {a : Alternative} {found : Candidate}
    (hfound : ((Matcher.after uses).candidate c jobFilter a).2 = .ok found)
    (hS : ∀ o ∈ S, o ∈ B) (h : ∀ o ∈ B, o ∈ A) (hpick : found.pick? A = some S) :
    found.pick? B = some S := by
  rw [(Matcher.candidate_eq (Matcher.ready_after hapart) jobFilter a).1] at hfound
  exact Candidate.pick?_of_between (Catalog.proper_candidate hfound) h hS hpick

section ThreeNodes

/-- Two nodes of two resources and one of a single resource. -/
def threeNodes : Catalog where
  snapshot := 2
  resources :=
    [⟨1, .alive, none, none, [("network_address", "a")]⟩,
      ⟨2, .alive, none, none, [("network_address", "a")]⟩,
      ⟨3, .alive, none, none, [("network_address", "b")]⟩,
      ⟨4, .alive, none, none, [("network_address", "b")]⟩,
      ⟨5, .alive, none, none, [("network_address", "c")]⟩]
  distinct := by decide

/-- One resource on each of two nodes, and a whole node besides. -/
def twoSpreadAndNode : Alternative :=
  ⟨11, 60, [⟨none, [⟨"network_address", 2⟩, ⟨"resource_id", 1⟩]⟩, ⟨none, [⟨"network_address", 1⟩]⟩]⟩

def twoSpreadAndNodeCandidate : Candidate :=
  let nodes : List OrdinalSet := [.ofIds [0, 1], .ofIds [2, 3], .single 4]
  let ones : List OrdinalSet := [.single 0, .single 1, .single 2, .single 3, .single 4]
  ⟨11, 60,
    [⟨.ofIds [0, 1, 2, 3, 4], [⟨"network_address", 2, nodes⟩, ⟨"resource_id", 1, ones⟩]⟩,
      ⟨.ofIds [0, 1, 2, 3, 4], [⟨"network_address", 1, nodes⟩]⟩]⟩

/-- The first two nodes give one resource each and the third is taken whole. It does not matter that the
second resource of the first node becomes busy. -/
theorem pick?_of_shrunk_threeNodes :
    let uses : List Matcher.Use := [.candidate twoNodes none nodeAndOne]
    let more : OrdinalSet := .ofIds [0, 1, 2, 3, 4]
    let less : OrdinalSet := .ofIds [0, 2, 3, 4]
    let chosen : OrdinalSet := .ofIds [0, 2, 4]
    Matcher.SnapshotsApart (threeNodes :: uses.map Matcher.Use.catalog) ∧
      ((Matcher.after uses).candidate threeNodes none twoSpreadAndNode).2 =
        .ok twoSpreadAndNodeCandidate ∧
      (∀ o ∈ chosen, o ∈ less) ∧ (∀ o ∈ less, o ∈ more) ∧
      twoSpreadAndNodeCandidate.pick? more = some chosen ∧
      twoSpreadAndNodeCandidate.pick? less = some chosen := by
  intro uses more less chosen
  have hapart : Matcher.SnapshotsApart (threeNodes :: uses.map Matcher.Use.catalog) := by
    intro c hc d hd h
    simp only [uses, List.map_cons, List.map_nil, Matcher.Use.catalog, List.mem_cons,
      List.not_mem_nil, or_false] at hc hd
    rcases hc with rfl | rfl <;> rcases hd with rfl | rfl <;>
      first | rfl | exact absurd h (by decide)
  have hfound : ((Matcher.after uses).candidate threeNodes none twoSpreadAndNode).2 =
      .ok twoSpreadAndNodeCandidate := by
    decide +kernel
  have hchosen : ∀ o ∈ chosen, o ∈ less := by
    simp only [chosen, less, OrdinalSet.mem_ofIds]
    decide
  have hless : ∀ o ∈ less, o ∈ more := by
    simp only [less, more, OrdinalSet.mem_ofIds]
    decide
  have hpick : twoSpreadAndNodeCandidate.pick? more = some chosen := by decide +kernel
  exact ⟨hapart, hfound, hchosen, hless, hpick,
    pick?_of_shrunk hapart hfound hchosen hless hpick⟩

end ThreeNodes

end ClusterPlan
