import ClusterPlan.Matching.Candidate
import ClusterPlan.Proofs.OrdinalSet.Smallest
import Mathlib.Data.List.Sort

/-!
What the choice of resources gives. `Fills` says when a set meets a hierarchy of levels, without
saying how it is found; the choice takes available resources only, fills the levels, and serves the
parts of an alternative from disjoint sets.
-/

namespace ClusterPlan

theorem unionOfFirst?_eq_some_iff {n : Nat} {sets : List OrdinalSet} {s : OrdinalSet} :
    unionOfFirst? n sets = some s ↔
      n ≤ sets.length ∧ OrdinalSet.unionAll (sets.take n) = s := by
  simp only [unionOfFirst?]
  split
  · constructor
    · intro h
      cases h
    · omega
  · simp only [Option.some.injEq, iff_and_self]
    omega

theorem OrdinalSet.toList_sublist {a b : OrdinalSet} (h : ∀ o ∈ a, o ∈ b) :
    a.toList.Sublist b.toList := by
  apply List.sublist_of_subperm_of_pairwise _ a.toList_ascending b.toList_ascending
  apply List.subperm_of_subset a.toList_nodup
  intro o ho
  exact mem_toList.2 (h o (mem_toList.1 ho))

/-- A set meets a hierarchy of levels. At the bottom it consists of exactly `count` whole groups;
above, it takes a part of each of exactly `count` groups, and each part meets the levels below. -/
inductive Fills : List GroupedLevel → OrdinalSet → Prop where
  | bottom {level : GroupedLevel} {s : OrdinalSet} (taken : List OrdinalSet)
      (among : taken.Sublist level.groups) (count : taken.length = level.count)
      (mem : ∀ o, o ∈ s ↔ ∃ g ∈ taken, o ∈ g) : Fills [level] s
  | upper {level next : GroupedLevel} {lower : List GroupedLevel} {s : OrdinalSet}
      (taken : List (OrdinalSet × OrdinalSet))
      (among : (taken.map Prod.fst).Sublist level.groups) (count : taken.length = level.count)
      (inside : ∀ e ∈ taken, ∀ o ∈ e.2, o ∈ e.1)
      (below : ∀ e ∈ taken, Fills (next :: lower) e.2)
      (mem : ∀ o, o ∈ s ↔ ∃ e ∈ taken, o ∈ e.2) : Fills (level :: next :: lower) s

namespace GroupedLevel

/-- Under `resource_id` each group is one member, in ascending order. -/
def Singles (l : GroupedLevel) : Prop :=
  l.property = Resource.idProperty → l.groups = l.members.toList.map OrdinalSet.single

variable {l : GroupedLevel} {available s : OrdinalSet}

theorem pickWhole?_subset (h : l.pickWhole? available = some s) : ∀ o ∈ s, o ∈ available := by
  obtain ⟨_, rfl⟩ := unionOfFirst?_eq_some_iff.1 h
  intro o ho
  obtain ⟨g, hg, hog⟩ := OrdinalSet.mem_unionAll.1 ho
  have hfree := (List.mem_filter.1 (List.mem_of_mem_take hg)).2
  exact OrdinalSet.subset_iff.1 hfree o hog

theorem pickBottom?_subset (h : l.pickBottom? available = some s) : ∀ o ∈ s, o ∈ available := by
  simp only [pickBottom?] at h
  split at h
  · intro o ho
    have := List.mem_of_mem_take ((OrdinalSet.mem_smallest? h).1 ho)
    exact (OrdinalSet.mem_inter.1 (OrdinalSet.mem_toList.1 this)).1
  · exact pickWhole?_subset h

theorem fills_of_pickWhole? (h : l.pickWhole? available = some s) : Fills [l] s := by
  obtain ⟨hlen, rfl⟩ := unionOfFirst?_eq_some_iff.1 h
  refine .bottom ((l.groups.filter fun g => g.subset available).take l.count) ?_ ?_ ?_
  · exact (List.take_sublist _ _).trans List.filter_sublist
  · rw [List.length_take, Nat.min_eq_left hlen]
  · exact fun o => OrdinalSet.mem_unionAll

/-- Where every group is one resource, the least members are as many whole groups. -/
theorem fills_of_smallest? (hs : l.groups = l.members.toList.map OrdinalSet.single)
    (h : (available ∩ l.members).smallest? l.count = some s) : Fills [l] s := by
  refine .bottom (((available ∩ l.members).toList.take l.count).map OrdinalSet.single) ?_ ?_ ?_
  · rw [hs]
    apply List.Sublist.map
    apply (List.take_sublist _ _).trans
    exact OrdinalSet.toList_sublist fun o ho => (OrdinalSet.mem_inter.1 ho).2
  · have hle := OrdinalSet.le_card_of_smallest? h
    rw [← OrdinalSet.length_toList] at hle
    rw [List.length_map, List.length_take, Nat.min_eq_left hle]
  · intro o
    rw [OrdinalSet.mem_smallest? h]
    simp only [List.mem_map, exists_exists_and_eq_and, OrdinalSet.mem_single, exists_eq_right']

theorem fills_of_pickBottom? (hs : l.Singles) (h : l.pickBottom? available = some s) :
    Fills [l] s := by
  simp only [pickBottom?] at h
  split at h
  · rename_i hid
    exact fills_of_smallest? (hs hid) h
  · exact fills_of_pickWhole? h

end GroupedLevel

/-- One level above the bottom: each of the taken groups comes with the part chosen in it. -/
theorem exists_taken_of_unionOfFirst? {n : Nat} {groups : List OrdinalSet}
    {pick : OrdinalSet → Option OrdinalSet} {s : OrdinalSet}
    (h : unionOfFirst? n (groups.filterMap pick) = some s) :
    ∃ taken : List (OrdinalSet × OrdinalSet),
      (taken.map Prod.fst).Sublist groups ∧ taken.length = n ∧
        (∀ e ∈ taken, pick e.1 = some e.2) ∧ ∀ o, o ∈ s ↔ ∃ e ∈ taken, o ∈ e.2 := by
  obtain ⟨hlen, rfl⟩ := unionOfFirst?_eq_some_iff.1 h
  let pairs := groups.filterMap fun g => (pick g).map fun t => (g, t)
  have hsnd : pairs.map Prod.snd = groups.filterMap pick := by
    simp only [pairs, List.map_filterMap, Option.map_map]
    congr 1
    funext g
    cases pick g <;> rfl
  have hfst : (pairs.map Prod.fst).Sublist groups := by
    have hrest : ∀ gs : List OrdinalSet,
        ((gs.filterMap fun g => (pick g).map fun t => (g, t)).map Prod.fst).Sublist gs := by
      intro gs
      induction gs with
      | nil => exact .slnil
      | cons g gs ih =>
          cases hg : pick g with
          | none => simpa [hg] using ih.cons g
          | some t => simpa [hg] using ih.cons_cons g
    exact hrest groups
  refine ⟨pairs.take n, ?_, ?_, ?_, ?_⟩
  · rw [List.map_take]
    exact (List.take_sublist _ _).trans hfst
  · rw [← hsnd, List.length_map] at hlen
    rw [List.length_take, Nat.min_eq_left hlen]
  · intro e he
    obtain ⟨g, _, hg⟩ := List.mem_filterMap.1 (List.mem_of_mem_take he)
    obtain ⟨t, ht, rfl⟩ := Option.map_eq_some_iff.1 hg
    exact ht
  · intro o
    rw [OrdinalSet.mem_unionAll, ← hsnd, ← List.map_take]
    simp only [List.mem_map, exists_exists_and_eq_and]

/-- The part of a group that a choice may use, and what the levels below choose from it. -/
def pickWithin? (lower : List GroupedLevel) (available g : OrdinalSet) : Option OrdinalSet :=
  let usable := g ∩ available
  if usable.isEmpty then none else pickLevels? lower usable

theorem pickLevels?_cons_cons {level next : GroupedLevel} {lower : List GroupedLevel}
    {available : OrdinalSet} (hcount : level.count ≠ 0) :
    pickLevels? (level :: next :: lower) available =
      unionOfFirst? level.count
        (level.groups.filterMap (pickWithin? (next :: lower) available)) := by
  rw [pickLevels?]
  simp only [hcount, if_false, List.isEmpty_cons, Bool.false_eq_true]
  rfl

theorem pickWithin?_eq_some {lower : List GroupedLevel} {available g s : OrdinalSet}
    (h : pickWithin? lower available g = some s) : pickLevels? lower (g ∩ available) = some s := by
  simp only [pickWithin?] at h
  split at h
  · cases h
  · exact h

theorem pickLevels?_subset {levels : List GroupedLevel} {available s : OrdinalSet}
    (h : pickLevels? levels available = some s) : ∀ o ∈ s, o ∈ available := by
  induction levels generalizing available s with
  | nil => cases h
  | cons level lower ih =>
      by_cases hcount : level.count = 0
      · rw [pickLevels?, if_pos hcount] at h
        cases h
        intro o ho
        exact (OrdinalSet.not_mem_empty o ho).elim
      · cases lower with
        | nil =>
            rw [pickLevels?, if_neg hcount] at h
            exact GroupedLevel.pickBottom?_subset h
        | cons next lower =>
            rw [pickLevels?_cons_cons hcount] at h
            obtain ⟨taken, _, _, hpick, hmem⟩ := exists_taken_of_unionOfFirst? h
            intro o ho
            obtain ⟨e, he, hoe⟩ := (hmem o).1 ho
            have := ih (pickWithin?_eq_some (hpick e he)) o hoe
            exact (OrdinalSet.mem_inter.1 this).2

theorem fills_of_pickLevels? {levels : List GroupedLevel}
    (hcount : ∀ l ∈ levels, l.count ≠ 0) (hsingles : ∀ l ∈ levels, l.Singles)
    {available s : OrdinalSet} (h : pickLevels? levels available = some s) : Fills levels s := by
  induction levels generalizing available s with
  | nil => cases h
  | cons level lower ih =>
      have hlevel := hcount level (by simp)
      cases lower with
      | nil =>
          rw [pickLevels?, if_neg hlevel] at h
          exact GroupedLevel.fills_of_pickBottom? (hsingles level (by simp)) h
      | cons next lower =>
          rw [pickLevels?_cons_cons hlevel] at h
          obtain ⟨taken, hamong, hlen, hpick, hmem⟩ := exists_taken_of_unionOfFirst? h
          refine .upper taken hamong hlen ?_ ?_ hmem
          · intro e he o ho
            have := pickLevels?_subset (pickWithin?_eq_some (hpick e he)) o ho
            exact (OrdinalSet.mem_inter.1 this).1
          · intro e he
            exact ih (fun l hl => hcount l (List.mem_cons_of_mem _ hl))
              (fun l hl => hsingles l (List.mem_cons_of_mem _ hl))
              (pickWithin?_eq_some (hpick e he))

section Parts

/-- Two sets without a common member. -/
def OrdinalSet.Disjoint (a b : OrdinalSet) : Prop := ∀ o ∈ a, o ∉ b

/-- What is chosen for one part: available, admissible, and meeting the levels of the part. -/
structure CandidatePart.Served (p : CandidatePart) (available s : OrdinalSet) : Prop where
  isFree : ∀ o ∈ s, o ∈ available
  isAdmissible : ∀ o ∈ s, o ∈ p.admissible
  chosen : pickLevels? p.levels (available ∩ p.admissible) = some s

theorem CandidatePart.served_of_pick? {p : CandidatePart} {available s : OrdinalSet}
    (h : p.pick? available = some s) : p.Served available s where
  isFree o ho := (OrdinalSet.mem_inter.1 (pickLevels?_subset h o ho)).1
  isAdmissible o ho := (OrdinalSet.mem_inter.1 (pickLevels?_subset h o ho)).2
  chosen := h

theorem pickEach?_cons_eq_some {p : CandidatePart} {rest : List CandidatePart}
    {available : OrdinalSet} {sets : List OrdinalSet}
    (h : pickEach? (p :: rest) available = some sets) :
    ∃ chosen others, p.pick? available = some chosen ∧
      pickEach? rest (available \ chosen) = some others ∧ sets = chosen :: others := by
  rw [pickEach?] at h
  simp only [Option.bind_eq_bind, Option.bind_eq_some_iff] at h
  obtain ⟨chosen, hchosen, others, hothers, hsets⟩ := h
  cases hsets
  exact ⟨chosen, others, hchosen, hothers, rfl⟩

theorem pickEach?_subset {parts : List CandidatePart} {available : OrdinalSet}
    {sets : List OrdinalSet} (h : pickEach? parts available = some sets) :
    ∀ s ∈ sets, ∀ o ∈ s, o ∈ available := by
  induction parts generalizing available sets with
  | nil =>
      cases h
      simp
  | cons p rest ih =>
      obtain ⟨chosen, others, hchosen, hothers, rfl⟩ := pickEach?_cons_eq_some h
      intro s hs o ho
      rcases List.mem_cons.1 hs with rfl | hs
      · exact (CandidatePart.served_of_pick? hchosen).isFree o ho
      · exact (OrdinalSet.mem_sdiff.1 (ih hothers s hs o ho)).1

/-- Later parts choose from what earlier ones leave. -/
theorem pickEach?_disjoint {parts : List CandidatePart} {available : OrdinalSet}
    {sets : List OrdinalSet} (h : pickEach? parts available = some sets) :
    sets.Pairwise OrdinalSet.Disjoint := by
  induction parts generalizing available sets with
  | nil =>
      cases h
      exact .nil
  | cons p rest ih =>
      obtain ⟨chosen, others, _, hothers, rfl⟩ := pickEach?_cons_eq_some h
      refine List.pairwise_cons.2 ⟨?_, ih hothers⟩
      intro s hs o ho hos
      exact (OrdinalSet.mem_sdiff.1 (pickEach?_subset hothers s hs o hos)).2 ho

theorem pickEach?_served {parts : List CandidatePart} {available : OrdinalSet}
    {sets : List OrdinalSet} (h : pickEach? parts available = some sets) :
    List.Forall₂ (fun p s => ∃ left, (∀ o ∈ left, o ∈ available) ∧ p.Served left s) parts sets := by
  induction parts generalizing available sets with
  | nil =>
      cases h
      exact .nil
  | cons p rest ih =>
      obtain ⟨chosen, others, hchosen, hothers, rfl⟩ := pickEach?_cons_eq_some h
      refine .cons ⟨available, fun o ho => ho, CandidatePart.served_of_pick? hchosen⟩ ?_
      refine (ih hothers).imp ?_
      rintro q s ⟨left, hleft, hserved⟩
      exact ⟨left, fun o ho => (OrdinalSet.mem_sdiff.1 (hleft o ho)).1, hserved⟩

theorem Candidate.pick?_subset {c : Candidate} {available s : OrdinalSet}
    (h : c.pick? available = some s) : ∀ o ∈ s, o ∈ available := by
  obtain ⟨sets, hsets, rfl⟩ := Option.map_eq_some_iff.1 h
  intro o ho
  obtain ⟨t, ht, hot⟩ := OrdinalSet.mem_unionAll.1 ho
  exact pickEach?_subset hsets t ht o hot

end Parts

end ClusterPlan
