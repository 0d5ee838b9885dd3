import ClusterPlan.Proofs.Matching.Stability

/-!
The choice for a hierarchy decides whether it can be met. It goes down once, takes the first groups that
are of use and never goes back. That is enough: whether a group is of use depends on what is available
in it and not on the groups taken before, so as many groups as some answer has are found of use.
-/

namespace ClusterPlan

/-- The set is put together from the levels. At the bottom it is the union of `count` distinct groups;
above, the union over `count` distinct groups of sets inside them that are put together from the levels
below. -/
inductive Composed : List GroupedLevel → OrdinalSet → Prop where
  | bottom {level : GroupedLevel} {s : OrdinalSet} (taken : List OrdinalSet)
      (distinct : taken.Nodup) (among : ∀ g ∈ taken, g ∈ level.groups)
      (count : taken.length = level.count) (union : ∀ o, o ∈ s ↔ ∃ g ∈ taken, o ∈ g) :
      Composed [level] s
  | upper {level next : GroupedLevel} {lower : List GroupedLevel} {s : OrdinalSet}
      (taken : List (OrdinalSet × OrdinalSet)) (distinct : (taken.map Prod.fst).Nodup)
      (among : ∀ e ∈ taken, e.1 ∈ level.groups) (count : taken.length = level.count)
      (inside : ∀ e ∈ taken, ∀ o ∈ e.2, o ∈ e.1)
      (below : ∀ e ∈ taken, Composed (next :: lower) e.2)
      (union : ∀ o, o ∈ s ↔ ∃ e ∈ taken, o ∈ e.2) : Composed (level :: next :: lower) s

variable {levels : List GroupedLevel} {level : GroupedLevel} {available s : OrdinalSet}

section Sound

/-- Groups that are taken in order are distinct if all groups are. -/
theorem composed_of_fills (hdistinct : ∀ l ∈ levels, l.groups.Nodup) (h : Fills levels s) :
    Composed levels s := by
  induction h with
  | bottom taken among count mem =>
      exact .bottom taken (among.nodup (hdistinct _ List.mem_cons_self)) (fun _ hg => among.subset hg)
        count mem
  | upper taken among count inside _ mem ih =>
      exact .upper taken (among.nodup (hdistinct _ List.mem_cons_self))
        (fun _ he => among.subset (List.mem_map_of_mem he)) count inside
        (fun e he => ih e he fun l hl => hdistinct l (List.mem_cons_of_mem _ hl)) mem

end Sound

section Complete

theorem exists_mem_of_composed (hproper : ∀ l ∈ levels, l.Proper) (h : Composed levels s) :
    ∃ o, o ∈ s := by
  induction h with
  | bottom taken _ among count union =>
      obtain ⟨hlevel, -⟩ := List.forall_mem_cons.1 hproper
      obtain ⟨g, hg⟩ := List.exists_mem_of_length_pos (count ▸ Nat.pos_of_ne_zero hlevel.count)
      obtain ⟨o, ho⟩ := hlevel.inhabited g (among g hg)
      exact ⟨o, (union o).2 ⟨g, hg, ho⟩⟩
  | upper taken _ _ count _ _ union ih =>
      obtain ⟨hlevel, hlower⟩ := List.forall_mem_cons.1 hproper
      obtain ⟨e, he⟩ := List.exists_mem_of_length_pos (count ▸ Nat.pos_of_ne_zero hlevel.count)
      obtain ⟨o, ho⟩ := ih e he hlower
      exact ⟨o, (union o).2 ⟨e, he, ho⟩⟩

/-- Distinct groups that pass a test are not more than all that pass it. -/
theorem length_le_countP_of_distinct {taken groups : List OrdinalSet} {q : OrdinalSet → Bool}
    (distinct : taken.Nodup) (h : ∀ g ∈ taken, g ∈ groups ∧ q g = true) :
    taken.length ≤ groups.countP q := by
  rw [List.countP_eq_length_filter]
  exact (List.subperm_of_subset distinct fun g hg => List.mem_filter.2 (h g hg)).length_le

/-- At the bottom there is a choice if there are whole groups enough. -/
theorem isSome_pickBottom?_of_countP (hsingles : level.Singles)
    (h : level.count ≤ level.groups.countP fun g => g.subset available) :
    (level.pickBottom? available).isSome = true := by
  rw [List.countP_eq_length_filter] at h
  simp only [GroupedLevel.pickBottom?]
  split
  · rename_i hid
    rw [hsingles hid, List.filter_map, List.length_map] at h
    have hfree : ∀ o ∈ level.members.toList.filter fun o => (OrdinalSet.single o).subset available,
        o ∈ (available ∩ level.members).toList := by
      intro o ho
      obtain ⟨hmem, hsubset⟩ := List.mem_filter.1 ho
      rw [OrdinalSet.mem_toList] at hmem ⊢
      have hfree := OrdinalSet.subset_iff.1 hsubset o (OrdinalSet.mem_single.2 rfl)
      exact OrdinalSet.mem_inter.2 ⟨hfree, hmem⟩
    have hroom := (List.subperm_of_subset (level.members.toList_nodup.filter _) hfree).length_le
    rw [OrdinalSet.length_toList] at hroom
    rw [OrdinalSet.smallest?, if_neg (by exact Nat.not_lt.2 (h.trans hroom))]
    rfl
  · rw [GroupedLevel.pickWhole?, isSome_unionOfFirst?]
    exact h

/-- A set that is put together from the levels is enough to choose from. -/
theorem isSome_pickLevels?_of_composed (hproper : ∀ l ∈ levels, l.Proper)
    (hsingles : ∀ l ∈ levels, l.Singles) (h : Composed levels s) :
    (pickLevels? levels s).isSome = true := by
  induction h with
  | @bottom level s taken distinct among count union =>
      rw [pickLevels?, if_neg (hproper _ List.mem_cons_self).count]
      apply isSome_pickBottom?_of_countP (hsingles _ List.mem_cons_self)
      rw [← count]
      refine length_le_countP_of_distinct distinct fun g hg => ⟨among g hg, ?_⟩
      exact OrdinalSet.subset_iff.2 fun o ho => (union o).2 ⟨g, hg, ho⟩
  | @upper level next lower s taken distinct among count inside below union ih =>
      obtain ⟨hlevel, hlower⟩ := List.forall_mem_cons.1 hproper
      rw [pickLevels?_cons_cons hlevel.count, isSome_unionOfFirst?,
        List.length_filterMap_eq_countP, ← count, ← List.length_map (f := Prod.fst)]
      refine length_le_countP_of_distinct distinct fun g hg => ?_
      obtain ⟨e, he, rfl⟩ := List.mem_map.1 hg
      refine ⟨among e he, ?_⟩
      -- What the answer has of the group is usable in it, and enough for the levels below.
      have hsub : ∀ o ∈ e.2, o ∈ e.1 ∩ s := fun o ho =>
        OrdinalSet.mem_inter.2 ⟨inside e he o ho, (union o).2 ⟨e, he, ho⟩⟩
      obtain ⟨o, ho⟩ := exists_mem_of_composed hlower (below e he)
      have hused : ¬ (e.1 ∩ s).isEmpty = true := fun hempty =>
        OrdinalSet.isEmpty_iff.1 hempty o (hsub o ho)
      rw [pickWithin?, if_neg hused]
      exact isSome_pickLevels?_mono hsub
        (ih e he hlower fun l hl => hsingles l (List.mem_cons_of_mem _ hl))

end Complete

/-- Over the groups of one admissible set the choice succeeds exactly if some available set is put
together from the levels, and what it gives is such a set. -/
theorem pickLevels?_decides {c : Catalog} {within : OrdinalSet} (available : OrdinalSet)
    (hlevels : ∀ l ∈ levels, l.IsOf c within) :
    ((pickLevels? levels available).isSome = true ↔
      ∃ s, (∀ o ∈ s, o ∈ available) ∧ Composed levels s) ∧
    ∀ s, pickLevels? levels available = some s → (∀ o ∈ s, o ∈ available) ∧ Composed levels s := by
  have hproper : ∀ l ∈ levels, l.Proper := fun l hl => proper_of_isOf (hlevels l hl)
  have hsingles : ∀ l ∈ levels, l.Singles := fun l hl => singles_of_isOf (hlevels l hl)
  have hdistinct : ∀ l ∈ levels, l.groups.Nodup := fun l hl =>
    (hlevels l hl).groups ▸ c.nodup_groups l.property within
  have hsound : ∀ s, pickLevels? levels available = some s →
      (∀ o ∈ s, o ∈ available) ∧ Composed levels s := fun s hs =>
    ⟨pickLevels?_subset hs, composed_of_fills hdistinct
      (fills_of_pickLevels? (fun l hl => (hlevels l hl).count) hsingles hs)⟩
  refine ⟨⟨fun hsome => ?_, ?_⟩, hsound⟩
  · obtain ⟨s, hs⟩ := Option.isSome_iff_exists.1 hsome
    exact ⟨s, hsound s hs⟩
  · rintro ⟨s, hinside, hcomposed⟩
    exact isSome_pickLevels?_mono hinside (isSome_pickLevels?_of_composed hproper hsingles hcomposed)

section Racks

/-- Two nodes, each with one resource in either rack. -/
def racks : Catalog where
  snapshot := 1
  resources :=
    [⟨1, .alive, none, none, [("rack", "x"), ("network_address", "a")]⟩,
      ⟨2, .alive, none, none, [("rack", "x"), ("network_address", "b")]⟩,
      ⟨3, .alive, none, none, [("rack", "y"), ("network_address", "a")]⟩,
      ⟨4, .alive, none, none, [("rack", "y"), ("network_address", "b")]⟩]
  distinct := by decide

def racksLevel (property : String) (count : Nat) : GroupedLevel :=
  ⟨property, count, racks.groups property racks.defaults⟩

theorem isOf_racksLevel {property : String} {count : Nat} (h : count ≠ 0) :
    (racksLevel property count).IsOf racks racks.defaults := ⟨h, rfl⟩

/-- No rack holds a whole node. With the third resource gone, the second node still has one resource in
each of two racks. -/
theorem pickLevels?_decides_racks :
    (∀ l ∈ [racksLevel "rack" 1, racksLevel "network_address" 1], l.IsOf racks racks.defaults) ∧
      (¬ ∃ s, (∀ o ∈ s, o ∈ racks.defaults) ∧
        Composed [racksLevel "rack" 1, racksLevel "network_address" 1] s) ∧
      (∀ o ∈ OrdinalSet.ofIds [1, 3], o ∈ OrdinalSet.ofIds [0, 1, 3]) ∧
      Composed [racksLevel "network_address" 1, racksLevel "rack" 2, racksLevel "resource_id" 1]
        (.ofIds [1, 3]) := by
  have hcrossing : ∀ l ∈ [racksLevel "rack" 1, racksLevel "network_address" 1],
      l.IsOf racks racks.defaults :=
    List.forall_mem_cons.2 ⟨isOf_racksLevel (by decide),
      List.forall_mem_singleton.2 (isOf_racksLevel (by decide))⟩
  have hnested : ∀ l ∈ [racksLevel "network_address" 1, racksLevel "rack" 2,
      racksLevel "resource_id" 1], l.IsOf racks racks.defaults :=
    List.forall_mem_cons.2 ⟨isOf_racksLevel (by decide), List.forall_mem_cons.2
      ⟨isOf_racksLevel (by decide), List.forall_mem_singleton.2 (isOf_racksLevel (by decide))⟩⟩
  refine ⟨hcrossing, fun hsome => ?_,
    (pickLevels?_decides (.ofIds [0, 1, 3]) hnested).2 _ (by decide +kernel)⟩
  have hnone : pickLevels? [racksLevel "rack" 1, racksLevel "network_address" 1] racks.defaults =
      none := by
    decide +kernel
  have hpick := (pickLevels?_decides racks.defaults hcrossing).1.2 hsome
  rw [hnone] at hpick
  cases hpick

end Racks

end ClusterPlan
