import ClusterPlan.Proofs.Matching.Feasibility

/-!
Which of the possible sets is chosen. The choice goes through groups in the order of their least
members and gives the lexicographically smallest set as long as what the groups give begins in that
order too. It does where every group of an upper level lies before the next; where groups interleave,
the available part of an earlier group may begin after that of a later one.
-/

namespace ClusterPlan

section Groups

/-! One level: a choice of the first groups that serve, against another choice of as many groups. -/

variable {groups : List OrdinalSet} {pick : OrdinalSet → Option OrdinalSet} {n : Nat}
  {s t : OrdinalSet} {taken : List (OrdinalSet × OrdinalSet)}

/-- Groups up to the last one that is needed, and what they give. -/
theorem exists_front_of_unionOfFirst? (h : unionOfFirst? n (groups.filterMap pick) = some s) :
    ∃ front back, groups = front ++ back ∧ (front.filterMap pick).length = n ∧
      s = OrdinalSet.unionAll (front.filterMap pick) := by
  obtain ⟨hlen, rfl⟩ := unionOfFirst?_eq_some_iff.1 h
  obtain ⟨front, back, hgroups, hfront, -⟩ := List.filterMap_eq_append_iff.1
    (List.take_append_drop n (groups.filterMap pick)).symm
  refine ⟨front, back, hgroups, ?_, by rw [hfront]⟩
  rw [hfront, List.length_take, Nat.min_eq_left hlen]

/-- Who takes a group from the back leaves one in front that serves. -/
theorem exists_left_of_back {front back : List OrdinalSet} (hdistinct : (front ++ back).Nodup)
    (hfront : (front.filterMap pick).length = n) (hcount : taken.length = n)
    {e : OrdinalSet × OrdinalSet} (he : e ∈ taken) (hback : e.1 ∈ back) :
    ∃ g ∈ front, (pick g).isSome = true ∧ g ∉ taken.map Prod.fst := by
  by_contra hnone
  push Not at hnone
  have hserving : (front.filter fun g => (pick g).isSome).length = n := by
    rw [← List.countP_eq_length_filter, ← List.length_filterMap_eq_countP, hfront]
  have hapart := (List.nodup_append.1 hdistinct).2.2
  have hnodup : (e.1 :: front.filter fun g => (pick g).isSome).Nodup := by
    refine List.nodup_cons.2 ⟨fun hmem => ?_, (List.nodup_append.1 hdistinct).1.filter _⟩
    exact hapart _ (List.mem_filter.1 hmem).1 _ hback rfl
  have hsub : (e.1 :: front.filter fun g => (pick g).isSome) ⊆ taken.map Prod.fst := by
    refine List.cons_subset.2 ⟨List.mem_map_of_mem he, fun g hg => ?_⟩
    exact hnone g (List.mem_filter.1 hg).1 (List.mem_filter.1 hg).2
  have hle := (List.subperm_of_subset hnodup hsub).length_le
  rw [List.length_cons, hserving, List.length_map, hcount] at hle
  omega

/-- What the first groups give leads all else that as many groups could give, if each of them gives
the best it has. -/
theorem eq_or_leads_of_firstGroups (hdistinct : groups.Nodup)
    (hapart : ∀ g ∈ groups, ∀ h ∈ groups, ∀ o ∈ g, o ∈ h → g = h)
    (hinside : ∀ g p, pick g = some p → ∀ o ∈ p, o ∈ g)
    (horder : (groups.filterMap pick).Pairwise OrdinalSet.BeginsBefore)
    (hs : unionOfFirst? n (groups.filterMap pick) = some s)
    (htaken : (taken.map Prod.fst).Nodup) (hamong : ∀ e ∈ taken, e.1 ∈ groups)
    (hcount : taken.length = n) (hwithin : ∀ e ∈ taken, ∀ o ∈ e.2, o ∈ e.1)
    (hbest : ∀ e ∈ taken, ∃ p, pick e.1 = some p ∧ (p = e.2 ∨ p.Leads e.2))
    (ht : ∀ o, o ∈ t ↔ ∃ e ∈ taken, o ∈ e.2) : s = t ∨ s.Leads t := by
  obtain ⟨front, back, rfl, hfront, rfl⟩ := exists_front_of_unionOfFirst? hs
  have hchosen : ∀ {g p o}, g ∈ front → pick g = some p → o ∈ p →
      o ∈ OrdinalSet.unionAll (front.filterMap pick) := fun hg hp ho =>
    OrdinalSet.mem_unionAll.2 ⟨_, List.mem_filterMap.2 ⟨_, hg, hp⟩, ho⟩
  refine OrdinalSet.eq_or_leads fun x hxt hxs hagree => ?_
  obtain ⟨e, he, hxe⟩ := (ht x).1 hxt
  obtain ⟨p, hp, hlead⟩ := hbest e he
  rcases List.mem_append.1 (hamong e he) with hmem | hmem
  -- The group is among the first, so the difference lies within it.
  · rcases hlead with rfl | ⟨y, hy, hye, hbelow⟩
    · exact hxs (hchosen hmem hp hxe)
    · have hyx : y < x := by
        have hne : y ≠ x := fun heq => hye (heq ▸ hxe)
        have hle : ¬ x < y := fun hlt => hxs (hchosen hmem hp ((hbelow x hlt).2 hxe))
        omega
      obtain ⟨d, hd, hyd⟩ := (ht y).1 ((hagree y hyx).1 (hchosen hmem hp hy))
      have hsame : d.1 = e.1 := hapart _ (hamong d hd) _ (hamong e he) y (hwithin d hd y hyd)
        (hinside _ _ hp y hy)
      exact hye (List.inj_on_of_nodup_map htaken hd he hsame ▸ hyd)
  -- Another group among the first is not taken, and what it gives begins before.
  · obtain ⟨g, hg, hserves, hleft⟩ := exists_left_of_back hdistinct hfront hcount he hmem
    obtain ⟨q, hq⟩ := Option.isSome_iff_exists.1 hserves
    rw [List.filterMap_append, List.pairwise_append] at horder
    obtain ⟨o, ho, hbefore⟩ := horder.2.2 q (List.mem_filterMap.2 ⟨g, hg, hq⟩) p
      (List.mem_filterMap.2 ⟨e.1, hmem, hp⟩)
    obtain ⟨y, hy, hyx⟩ := OrdinalSet.exists_le_of_leads hlead hxe
    have hox := Nat.lt_of_lt_of_le (hbefore y hy) hyx
    obtain ⟨d, hd, hod⟩ := (ht o).1 ((hagree o hox).1 (hchosen hg hq ho))
    have hsame : d.1 = g := hapart _ (hamong d hd) _ (List.mem_append_left _ hg) o
      (hwithin d hd o hod) (hinside _ _ hq o ho)
    exact hleft (hsame ▸ List.mem_map_of_mem hd)

end Groups

/-- Above the bottom, what groups would give begins in the order in which they are tried. -/
def TriedInOrder : List GroupedLevel → OrdinalSet → Prop
  | level :: next :: lower, available =>
      (level.groups.filterMap (pickWithin? (next :: lower) available)).Pairwise
          OrdinalSet.BeginsBefore ∧
        ∀ g ∈ level.groups, TriedInOrder (next :: lower) (g ∩ available)
  | _, _ => True

section Levels

variable {c : Catalog} {within available s t : OrdinalSet} {levels : List GroupedLevel}
  {level : GroupedLevel}

/-- Where groups are single resources the least ones are the first whole groups. -/
theorem pickBottom?_eq_pickWhole? (h : level.Singles) (available : OrdinalSet) :
    level.pickBottom? available = level.pickWhole? available := by
  rw [GroupedLevel.pickBottom?]
  split
  · rename_i hid
    have hmembers : (available ∩ level.members).toList =
        level.members.toList.filter fun o => (OrdinalSet.single o).subset available := by
      refine List.Pairwise.eq_of_mem_iff (OrdinalSet.toList_ascending _)
        (level.members.toList_ascending.filter _) fun o => ?_
      simp only [List.mem_filter, OrdinalSet.mem_toList, OrdinalSet.mem_inter,
        OrdinalSet.subset_iff, OrdinalSet.mem_single, forall_eq, and_comm]
    have hwhole : (level.groups.filter fun g => g.subset available) =
        (available ∩ level.members).toList.map OrdinalSet.single := by
      rw [hmembers, h hid, List.filter_map]
      rfl
    rw [GroupedLevel.pickWhole?, hwhole, unionOfFirst?, List.length_map,
      OrdinalSet.length_toList]
    cases hpick : (available ∩ level.members).smallest? level.count with
    | none => rw [if_pos (OrdinalSet.smallest?_eq_none_iff.1 hpick)]
    | some s =>
        rw [if_neg (Nat.not_lt.2 (OrdinalSet.le_card_of_smallest? hpick)), Option.some.injEq]
        refine OrdinalSet.ext_mem fun o => ?_
        simp only [OrdinalSet.mem_smallest? hpick, ← List.map_take, OrdinalSet.mem_unionAll,
          List.mem_map, exists_exists_and_eq_and, OrdinalSet.mem_single, exists_eq_right']
  · rfl

theorem composed_of_pickLevels? (hlevels : ∀ l ∈ levels, l.IsOf c within)
    (h : pickLevels? levels available = some s) : Composed levels s :=
  composed_of_fills (fun l hl => (hlevels l hl).groups ▸ c.nodup_groups l.property within)
    (fills_of_pickLevels? (fun l hl => (hlevels l hl).count)
      (fun l hl => singles_of_isOf (hlevels l hl)) h)

/-- No set that is put together from the levels is a proper part of another. -/
theorem eq_of_composed_of_subset (hlevels : ∀ l ∈ levels, l.IsOf c within) (hs : Composed levels s)
    (ht : Composed levels t) (hsub : ∀ o ∈ t, o ∈ s) : s = t := by
  induction hs generalizing t with
  | @bottom level s taken distinct among count union =>
      cases ht with
      | bottom taken' distinct' among' count' union' =>
          have hlevel := hlevels level List.mem_cons_self
          have hfound : taken' ⊆ taken := by
            intro g hg
            obtain ⟨o, ho⟩ := (proper_of_isOf hlevel).inhabited g (among' g hg)
            obtain ⟨h, hh, hoh⟩ := (union o).1 (hsub o ((union' o).2 ⟨g, hg, ho⟩))
            have hsame := Catalog.eq_of_mem_groups (hlevel.groups ▸ among' g hg)
              (hlevel.groups ▸ among h hh) ho hoh
            exact hsame ▸ hh
          have hperm := (List.subperm_of_subset distinct' hfound).perm_of_length_le
            (by rw [count, count'])
          refine OrdinalSet.ext_mem fun o => ?_
          simp only [union, union', hperm.mem_iff]
  | @upper level next lower s taken distinct among count inside below union ih =>
      cases ht with
      | upper taken' distinct' among' count' inside' below' union' =>
          have hlevel := hlevels level List.mem_cons_self
          have hlower : ∀ l ∈ next :: lower, l.IsOf c within := fun l hl =>
            hlevels l (List.mem_cons_of_mem _ hl)
          have hgroup : ∀ d ∈ taken', ∀ e ∈ taken, ∀ o ∈ d.2, o ∈ e.2 → d.1 = e.1 :=
            fun d hd e he o hod hoe => Catalog.eq_of_mem_groups (hlevel.groups ▸ among' d hd)
              (hlevel.groups ▸ among e he) (inside' d hd o hod) (inside e he o hoe)
          have hmeets : ∀ d ∈ taken', ∀ o ∈ d.2, ∃ e ∈ taken, o ∈ e.2 := fun d hd o ho =>
            (union o).1 (hsub o ((union' o).2 ⟨d, hd, ho⟩))
          have hfound : taken'.map Prod.fst ⊆ taken.map Prod.fst := by
            intro g hg
            obtain ⟨d, hd, rfl⟩ := List.mem_map.1 hg
            obtain ⟨o, ho⟩ := exists_mem_of_composed (fun l hl => proper_of_isOf (hlower l hl))
              (below' d hd)
            obtain ⟨e, he, hoe⟩ := hmeets d hd o ho
            exact hgroup d hd e he o ho hoe ▸ List.mem_map_of_mem he
          have hperm := (List.subperm_of_subset distinct' hfound).perm_of_length_le
            (by rw [List.length_map, List.length_map, count, count'])
          refine OrdinalSet.ext_mem fun o => ⟨fun ho => ?_, hsub o⟩
          obtain ⟨e, he, hoe⟩ := (union o).1 ho
          obtain ⟨d, hd, hsame⟩ := List.mem_map.1 (hperm.mem_iff.2 (List.mem_map_of_mem he))
          have heq : e.2 = d.2 := by
            refine ih e he hlower (below' d hd) fun p hp => ?_
            obtain ⟨e', he', hpe'⟩ := hmeets d hd p hp
            have htwice := (hgroup d hd e' he' p hp hpe').symm.trans hsame
            exact List.inj_on_of_nodup_map distinct he' he htwice ▸ hpe'
          exact (union' o).2 ⟨d, hd, heq ▸ hoe⟩

/-- The chosen set leads every other available set that is put together from the levels. -/
theorem eq_or_leads_of_composed (hlevels : ∀ l ∈ levels, l.IsOf c within)
    (horder : TriedInOrder levels available) (hpick : pickLevels? levels available = some s)
    (hfree : ∀ o ∈ t, o ∈ available) (ht : Composed levels t) : s = t ∨ s.Leads t := by
  have hdistinct : ∀ {l : GroupedLevel}, l.IsOf c within → l.groups.Nodup := fun {l} hl =>
    hl.groups ▸ c.nodup_groups l.property within
  have hapart : ∀ {l : GroupedLevel}, l.IsOf c within →
      ∀ g ∈ l.groups, ∀ h ∈ l.groups, ∀ o ∈ g, o ∈ h → g = h := fun hl g hg h hh o hog hoh =>
    Catalog.eq_of_mem_groups (hl.groups ▸ hg) (hl.groups ▸ hh) hog hoh
  induction ht generalizing available s with
  | @bottom level t taken distinct among count union =>
      have hlevel := hlevels level List.mem_cons_self
      rw [pickLevels?, if_neg hlevel.count] at hpick
      simp only [List.isEmpty_nil, if_true, pickBottom?_eq_pickWhole? (singles_of_isOf hlevel),
        GroupedLevel.pickWhole?, ← List.filterMap_eq_filter] at hpick
      refine eq_or_leads_of_firstGroups (hdistinct hlevel) (hapart hlevel) ?_ ?_ hpick
        (?_ : ((taken.map fun g => (g, g)).map Prod.fst).Nodup) (List.forall_mem_map.2 among)
        ((List.length_map _).trans count) (List.forall_mem_map.2 fun g _ o ho => ho) ?_ fun o => ?_
      · intro g p hp
        obtain ⟨rfl, -⟩ := Option.guard_eq_some_iff.1 hp
        exact fun o ho => ho
      · rw [List.filterMap_eq_filter, hlevel.groups]
        exact (c.groups_in_order level.property within).filter _
      · rwa [List.map_map, Function.comp_def, List.map_id']
      · refine List.forall_mem_map.2 fun g hg => ⟨g, ?_, Or.inl rfl⟩
        refine Option.guard_eq_some_iff.2 ⟨rfl, OrdinalSet.subset_iff.2 fun o ho => ?_⟩
        exact hfree o ((union o).2 ⟨g, hg, ho⟩)
      · simp only [union, List.mem_map, exists_exists_and_eq_and]
  | @upper level next lower t taken distinct among count inside below union ih =>
      have hlevel := hlevels level List.mem_cons_self
      have hlower : ∀ l ∈ next :: lower, l.IsOf c within := fun l hl =>
        hlevels l (List.mem_cons_of_mem _ hl)
      obtain ⟨hgiven, hinner⟩ := horder
      rw [pickLevels?_cons_cons hlevel.count] at hpick
      refine eq_or_leads_of_firstGroups (hdistinct hlevel) (hapart hlevel) ?_ hgiven hpick distinct
        among count inside (fun e he => ?_) union
      · intro g p hp o ho
        exact (OrdinalSet.mem_inter.1 (pickLevels?_subset (pickWithin?_eq_some hp) o ho)).1
      · -- What the other choice has of the group shows that the group serves.
        have hroom : ∀ o ∈ e.2, o ∈ e.1 ∩ available := fun o ho =>
          OrdinalSet.mem_inter.2 ⟨inside e he o ho, hfree o ((union o).2 ⟨e, he, ho⟩)⟩
        have hproper : ∀ l ∈ next :: lower, l.Proper := fun l hl => proper_of_isOf (hlower l hl)
        obtain ⟨o, ho⟩ := exists_mem_of_composed hproper (below e he)
        have hused : ¬ (e.1 ∩ available).isEmpty = true := fun hempty =>
          OrdinalSet.isEmpty_iff.1 hempty o (hroom o ho)
        obtain ⟨p, hp⟩ := Option.isSome_iff_exists.1
          (isSome_pickLevels?_mono hroom (isSome_pickLevels?_of_composed hproper
            (fun l hl => singles_of_isOf (hlower l hl)) (below e he)))
        refine ⟨p, by rw [pickWithin?, if_neg hused, hp], ?_⟩
        exact ih e he hlower (hinner e.1 (among e he)) hp hroom

/-- Groups that lie one after the other, as far as they are available, are tried in order. -/
theorem triedInOrder_of_blocks (hproper : ∀ l ∈ levels, l.Proper)
    (hblocks : ∀ l ∈ levels.dropLast, l.groups.Pairwise fun g h =>
      ∀ o ∈ g, o ∈ available → ∀ p ∈ h, p ∈ available → o < p) :
    TriedInOrder levels available := by
  induction levels generalizing available with
  | nil => trivial
  | cons level lower ih =>
      cases lower with
      | nil => trivial
      | cons next lower =>
          obtain ⟨-, hlower⟩ := List.forall_mem_cons.1 hproper
          rw [List.dropLast_cons_cons, List.forall_mem_cons] at hblocks
          refine ⟨hblocks.1.filterMap _ fun g h hgh p hp q hq => ?_, fun g _ => ?_⟩
          · have hserved := fun {g p : OrdinalSet}
                (hp : pickWithin? (next :: lower) available g = some p) o (ho : o ∈ p) =>
              OrdinalSet.mem_inter.1 (pickLevels?_subset (pickWithin?_eq_some hp) o ho)
            obtain ⟨o, ho⟩ := exists_mem_of_pickLevels? hlower (pickWithin?_eq_some hp)
            refine ⟨o, ho, fun r hr => ?_⟩
            exact hgh o (hserved hp o ho).1 (hserved hp o ho).2 r (hserved hq r hr).1
              (hserved hq r hr).2
          · refine ih hlower fun l hl => (hblocks.2 l hl).imp fun hgh o ho hmem p hp hmem' => ?_
            exact hgh o ho (OrdinalSet.mem_inter.1 hmem).2 p hp (OrdinalSet.mem_inter.1 hmem').2

end Levels

/-- Where groups are tried in order, no available set that is put together from the levels is
lexicographically smaller than the chosen one. -/
theorem not_lex_of_composed {c : Catalog} {within : OrdinalSet} {levels : List GroupedLevel}
    (hlevels : ∀ l ∈ levels, l.IsOf c within) {available s t : OrdinalSet}
    (horder : TriedInOrder levels available) (hpick : pickLevels? levels available = some s)
    (hfree : ∀ o ∈ t, o ∈ available) (ht : Composed levels t) :
    ¬ List.Lex (· < ·) t.toList s.toList := by
  rcases eq_or_leads_of_composed hlevels horder hpick hfree ht with rfl | hlead
  · exact List.lex_irrefl Nat.lt_irrefl _
  · obtain ⟨z, hz, hzs⟩ : ∃ z ∈ t, z ∉ s := by
      by_contra hnone
      push Not at hnone
      have heq := eq_of_composed_of_subset hlevels (composed_of_pickLevels? hlevels hpick) ht hnone
      obtain ⟨x, hx, hxt, -⟩ := hlead
      exact hxt (heq ▸ hx)
    exact List.lex_asymm Nat.lt_asymm (hlead.lex_toList hz hzs)

/-- One resource in each of two racks, the first resource being gone. The racks lie one after the
other. -/
theorem not_lex_of_composed_racks :
    let levels := [racksLevel "rack" 2, racksLevel "resource_id" 1]
    let available : OrdinalSet := .ofIds [1, 2, 3]
    (∀ l ∈ levels, l.IsOf racks racks.defaults) ∧ TriedInOrder levels available ∧
      pickLevels? levels available = some (.ofIds [1, 2]) ∧
      (∀ o ∈ OrdinalSet.ofIds [1, 3], o ∈ available) ∧ Composed levels (.ofIds [1, 3]) ∧
      ¬ List.Lex (· < ·) (OrdinalSet.ofIds [1, 3]).toList (OrdinalSet.ofIds [1, 2]).toList := by
  intro levels available
  have hlevels : ∀ l ∈ levels, l.IsOf racks racks.defaults :=
    List.forall_mem_cons.2 ⟨isOf_racksLevel (by decide),
      List.forall_mem_singleton.2 (isOf_racksLevel (by decide))⟩
  have hracks : (racksLevel "rack" 2).groups = [.ofIds [0, 1], .ofIds [2, 3]] := by decide +kernel
  have horder : TriedInOrder levels available := by
    refine triedInOrder_of_blocks (fun l hl => proper_of_isOf (hlevels l hl)) ?_
    refine List.forall_mem_singleton.2 (hracks ▸ List.pairwise_pair.2 fun o ho _ p hp _ => ?_)
    simp only [OrdinalSet.mem_ofIds, List.mem_cons, List.not_mem_nil, or_false] at ho hp
    omega
  have hpick : pickLevels? levels available = some (.ofIds [1, 2]) := by decide +kernel
  have hother : pickLevels? levels (.ofIds [1, 3]) = some (.ofIds [1, 3]) := by decide +kernel
  have hfree : ∀ o ∈ OrdinalSet.ofIds [1, 3], o ∈ available := by
    simp only [available, OrdinalSet.mem_ofIds]
    decide
  have hcomposed := composed_of_pickLevels? hlevels hother
  exact ⟨hlevels, horder, hpick, hfree, hcomposed,
    not_lex_of_composed hlevels horder hpick hfree hcomposed⟩

/-- The nodes interleave. With the first resource gone, the first node has the third one only, but it
is still tried before the node with the second one. -/
theorem lex_of_interleaved :
    ¬ ∀ (c : Catalog) (within : OrdinalSet) (levels : List GroupedLevel)
      (available s t : OrdinalSet), (∀ l ∈ levels, l.IsOf c within) →
      pickLevels? levels available = some s → (∀ o ∈ t, o ∈ available) → Composed levels t →
        ¬ List.Lex (· < ·) t.toList s.toList := by
  intro h
  have hlevels : ∀ l ∈ [racksLevel "network_address" 1, racksLevel "resource_id" 1],
      l.IsOf racks racks.defaults :=
    List.forall_mem_cons.2 ⟨isOf_racksLevel (by decide),
      List.forall_mem_singleton.2 (isOf_racksLevel (by decide))⟩
  have hpick : pickLevels? [racksLevel "network_address" 1, racksLevel "resource_id" 1]
      (.ofIds [1, 2, 3]) = some (.single 2) := by
    decide +kernel
  have hother : pickLevels? [racksLevel "network_address" 1, racksLevel "resource_id" 1]
      (.single 1) = some (.single 1) := by
    decide +kernel
  have hfree : ∀ o ∈ OrdinalSet.single 1, o ∈ OrdinalSet.ofIds [1, 2, 3] := by
    simp only [OrdinalSet.mem_single, OrdinalSet.mem_ofIds, forall_eq]
    decide
  have hsmaller : List.Lex (· < ·) (OrdinalSet.single 1).toList (OrdinalSet.single 2).toList :=
    .rel (by decide)
  exact h racks racks.defaults _ _ _ _ hlevels hpick hfree (composed_of_pickLevels? hlevels hother)
    hsmaller

end ClusterPlan
