import ClusterPlan.Proofs.Matching.Feasibility

/-!
What can be met is found. A set that realises the levels of a part is enough to choose from, so one part
is refused only if nothing meets it. Several parts are chosen for one after the other, and nothing that
was taken is given back: a later part can count on what no earlier part could be given.
-/

namespace ClusterPlan

section Levels

variable {c : Catalog} {admissible s : OrdinalSet} {property : String}
  (hadmissible : ∀ o ∈ admissible, o ∈ c.schedulable)

/-- Values that occur have groups of their own. -/
theorem nodup_map_groupOf {values : List String} (distinct : values.Nodup)
    (inhabited : ∀ v ∈ values, ∃ o, o ∈ c.groupOf property admissible v) :
    (values.map (c.groupOf property admissible)).Nodup := by
  refine distinct.map_on fun v hv w _ heq => ?_
  obtain ⟨o, ho⟩ := inhabited v hv
  have hv := (Catalog.mem_groupOf.1 ho).2
  have hw := (Catalog.mem_groupOf.1 (heq ▸ ho)).2
  exact Option.some.inj (hv.symm.trans hw)

include hadmissible in
theorem groupOf_mem_groups {v : String} (h : ∃ o, o ∈ c.groupOf property admissible v) :
    c.groupOf property admissible v ∈ c.groups property admissible := by
  obtain ⟨values, _, hgroups, hinhabited⟩ := @Catalog.groups_eq c property admissible hadmissible
  exact hgroups ▸ List.mem_map_of_mem ((hinhabited v).2 h)

include hadmissible in
/-- What realises the levels asked for is put together from their groups. -/
theorem composed_of_realises {levels : List GroupedLevel}
    (hlevels : ∀ l ∈ levels, l.IsOf c admissible)
    (h : Realises c admissible (levels.map GroupedLevel.level) s) : Composed levels s := by
  induction levels generalizing s with
  | nil => cases h
  | cons level lower ih =>
      obtain ⟨hlevel, hlower⟩ := List.forall_mem_cons.1 hlevels
      cases lower with
      | nil =>
          cases h with
          | bottom values distinct count inhabited whole =>
              refine .bottom (values.map (c.groupOf level.property admissible))
                (nodup_map_groupOf distinct inhabited) ?_ ((List.length_map _).trans count)
                fun o => ?_
              · rw [hlevel.groups, List.forall_mem_map]
                exact fun v hv => groupOf_mem_groups hadmissible (inhabited v hv)
              · simp only [whole, List.mem_map, exists_exists_and_eq_and]
                rfl
      | cons next lower =>
          cases h with
          | upper choice distinct count inhabited inside below union =>
              have hoccurs : ∀ e ∈ choice, ∃ o, o ∈ c.groupOf level.property admissible e.1 := by
                intro e he
                obtain ⟨o, ho⟩ := inhabited e he
                exact ⟨o, inside e he o ho⟩
              refine .upper (choice.map fun e => (c.groupOf level.property admissible e.1, e.2)) ?_
                ?_ ((List.length_map _).trans count) (List.forall_mem_map.2 inside) ?_ fun o => ?_
              · have hnodup := nodup_map_groupOf distinct (List.forall_mem_map.2 hoccurs)
                rwa [List.map_map] at hnodup ⊢
              · rw [hlevel.groups, List.forall_mem_map]
                exact fun e he => groupOf_mem_groups hadmissible (hoccurs e he)
              · exact List.forall_mem_map.2 fun e he => ih hlower (below e he)
              · simp only [union, List.mem_map, exists_exists_and_eq_and]

include hadmissible in
theorem length_le_length_groups {values : List String} (distinct : values.Nodup)
    (h : ∀ v ∈ values, ∃ o, o ∈ c.groupOf property admissible v) :
    values.length ≤ (c.groups property admissible).length := by
  rw [← List.length_map (f := c.groupOf property admissible)]
  refine (List.subperm_of_subset (nodup_map_groupOf distinct h) ?_).length_le
  exact List.forall_mem_map.2 fun v hv => groupOf_mem_groups hadmissible (h v hv)

include hadmissible in
/-- Where something realises the levels, each of them has groups enough. -/
theorem enough_groups_of_realises {levels : List Level} (h : Realises c admissible levels s)
    (hs : ∃ o, o ∈ s) : ∀ l ∈ levels, l.count ≤ (c.groups l.property admissible).length := by
  induction h with
  | bottom values distinct count inhabited _ =>
      intro l hl
      obtain rfl := List.mem_singleton.1 hl
      rw [← count]
      exact length_le_length_groups hadmissible distinct inhabited
  | upper choice distinct count inhabited inside _ union ih =>
      intro l hl
      obtain ⟨o, ho⟩ := hs
      obtain ⟨e, he, _⟩ := (union o).1 ho
      rcases List.mem_cons.1 hl with rfl | hl
      · rw [← count, ← List.length_map (f := Prod.fst)]
        apply length_le_length_groups hadmissible distinct
        intro v hv
        obtain ⟨e, he, rfl⟩ := List.mem_map.1 hv
        obtain ⟨o, ho⟩ := inhabited e he
        exact ⟨o, inside e he o ho⟩
      · exact ih e he (inhabited e he) l hl

end Levels

/-- A set that a part may be given: admissible for it, and what its levels ask for. -/
structure Suits (c : Catalog) (jobFilter : Option String) (part : Part) (s : OrdinalSet) : Prop where
  inhabited : ∃ o, o ∈ s
  isAdmissible : ∃ admissible, c.admissible jobFilter part = .ok admissible ∧
    (∀ o ∈ s, o ∈ admissible) ∧ Realises c admissible part.levels s

/-- No set has anything that is admissible for an earlier part. -/
def OutOfReach (c : Catalog) (jobFilter : Option String) :
    List Part → List OrdinalSet → Prop
  | part :: parts, _ :: sets =>
      (∀ admissible, c.admissible jobFilter part = .ok admissible →
        ∀ s ∈ sets, s.Disjoint admissible) ∧ OutOfReach c jobFilter parts sets
  | _, _ => True

section Parts

variable {c : Catalog} {jobFilter : Option String} {part : Part} {s available : OrdinalSet}

theorem Suits.isSome_pick? (h : Suits c jobFilter part s) {p : CandidatePart}
    (hp : c.matchPart jobFilter part = .ok p) (hs : ∀ o ∈ s, o ∈ available) :
    (p.pick? available).isSome = true := by
  obtain ⟨admissible, hadmissible, hinside, hrealises⟩ := h.isAdmissible
  obtain ⟨admissible', hadmissible', hgroup⟩ := groupPart_of_matchPart hp
  rw [hadmissible, Except.ok.injEq] at hadmissible'
  subst hadmissible'
  obtain ⟨hsame, hmap, hlevels⟩ := levels_of_groupPart hgroup
  rw [← hmap] at hrealises
  rw [CandidatePart.pick?, hsame]
  apply isSome_pickLevels?_mono (B := s)
  · exact fun o ho => OrdinalSet.mem_inter.2 ⟨hs o ho, hinside o ho⟩
  · exact isSome_pickLevels?_of_composed (fun l hl => proper_of_isOf (hlevels l hl))
      (fun l hl => singles_of_isOf (hlevels l hl))
      (composed_of_realises (admissible_subset hadmissible) hlevels hrealises)

/-- A part for which there is a suitable set may be malformed, but its groups are not too few. -/
theorem Suits.matchPart_ne (h : Suits c jobFilter part s) (shortage : Shortage) :
    c.matchPart jobFilter part ≠ .error (.unsatisfiable shortage) := by
  obtain ⟨admissible, hadmissible, hinside, hrealises⟩ := h.isAdmissible
  obtain ⟨o, ho⟩ := h.inhabited
  have hempty : ¬ admissible.isEmpty = true := fun hempty =>
    OrdinalSet.isEmpty_iff.1 hempty o (hinside o ho)
  have henough := enough_groups_of_realises (admissible_subset hadmissible) hrealises h.inhabited
  intro hshort
  simp only [Catalog.matchPart, hadmissible, Catalog.groupPart, if_neg hempty] at hshort
  split at hshort
  · cases hshort
  · cases hlevels : part.levels.mapM (c.groupLevel part admissible) with
    | ok levels =>
        rw [hlevels] at hshort
        cases hshort
    | error e =>
        rw [hlevels] at hshort
        cases hshort
        obtain ⟨l, hl, herror⟩ := error_of_mapM hlevels
        have hmany : ¬ (c.groups l.property admissible).length < l.count :=
          Nat.not_lt.2 (henough l hl)
        simp only [Catalog.groupLevel, hmany, if_false] at herror
        split at herror
        · cases herror
        · split at herror <;> cases herror

/-- Parts are served one after the other if each has a set out of reach of those before it. -/
theorem isSome_pickEach?_of_outOfReach {parts : List Part} {ps : List CandidatePart}
    {sets : List OrdinalSet}
    (hparts : List.Forall₂ (fun part p => c.matchPart jobFilter part = .ok p) parts ps)
    (hsets : List.Forall₂ (Suits c jobFilter) parts sets)
    (hapart : OutOfReach c jobFilter parts sets) (hfree : ∀ s ∈ sets, ∀ o ∈ s, o ∈ available) :
    (pickEach? ps available).isSome = true := by
  induction hparts generalizing sets available with
  | nil => rfl
  | @cons part p parts ps hp hparts ih =>
      cases hsets with
      | @cons _ s _ sets hsuits hsets =>
          obtain ⟨hclear, hrest⟩ := hapart
          obtain ⟨hs, hothers⟩ := List.forall_mem_cons.1 hfree
          obtain ⟨chosen, hchosen⟩ := Option.isSome_iff_exists.1 (hsuits.isSome_pick? hp hs)
          obtain ⟨admissible, hadmissible, hgroup⟩ := groupPart_of_matchPart hp
          -- What the first part takes is admissible for it, so the other sets stay free.
          have hleft : ∀ t ∈ sets, ∀ o ∈ t, o ∈ available \ chosen := by
            intro t ht o ho
            refine OrdinalSet.mem_sdiff.2 ⟨hothers t ht o ho, fun hmem => ?_⟩
            have htaken := (CandidatePart.served_of_pick? hchosen).isAdmissible o hmem
            rw [(levels_of_groupPart hgroup).1] at htaken
            exact hclear admissible hadmissible t ht o ho htaken
          obtain ⟨others, hpick⟩ := Option.isSome_iff_exists.1 (ih hsets hrest hleft)
          simp [pickEach?, hchosen, hpick]

end Parts

/-- A request is not called unsatisfiable if each of its parts has a suitable set of which nothing is
admissible for an earlier part. -/
theorem candidate_ne_unsatisfiable {c : Catalog} {uses : List Matcher.Use}
    (hapart : Matcher.SnapshotsApart (c :: uses.map Matcher.Use.catalog))
    {jobFilter : Option String} {a : Alternative} {sets : List OrdinalSet}
    (hwalltime : a.walltime ≤ Time.lastInstant)
    (hsets : List.Forall₂ (Suits c jobFilter) a.parts sets)
    (hreach : OutOfReach c jobFilter a.parts sets) (shortage : Shortage) :
    ((Matcher.after uses).candidate c jobFilter a).2 ≠ .error (.unsatisfiable shortage) := by
  rw [(Matcher.candidate_eq (Matcher.ready_after hapart) jobFilter a).1]
  intro hshort
  simp only [Catalog.candidate] at hshort
  cases hfault : a.fault? with
  | some e =>
      rw [hfault, Except.error.injEq] at hshort
      subst hshort
      simp only [Alternative.fault?, if_neg (not_lt.2 hwalltime)] at hfault
      split at hfault
      · cases hfault
      · split at hfault <;> cases hfault
  | none =>
      rw [hfault] at hshort
      cases hparts : a.parts.mapM (c.matchPart jobFilter) with
      | error e =>
          rw [hparts, Except.error.injEq] at hshort
          subst hshort
          obtain ⟨part, hpart, herror⟩ := error_of_mapM hparts
          obtain ⟨s, _, hsuits⟩ := exists_left_of_forall₂ hsets.flip hpart
          exact hsuits.matchPart_ne shortage herror
      | ok ps =>
          have hfree : ∀ s ∈ sets, ∀ o ∈ s, o ∈ c.schedulable := by
            intro s hs o ho
            obtain ⟨part, _, hsuits⟩ := exists_left_of_forall₂ hsets hs
            obtain ⟨admissible, hadmissible, hinside, _⟩ := hsuits.isAdmissible
            exact admissible_subset hadmissible o (hinside o ho)
          have hpick := isSome_pickEach?_of_outOfReach (forall₂_of_mapM hparts) hsets hreach hfree
          have hchecked := (Catalog.checkCandidate_eq_ok_iff (c := c) (a := a)).2 ⟨rfl, hpick⟩
          rw [hparts] at hshort
          simp only [hchecked] at hshort
          cases hshort

section OneGpu

/-- A node of two resources, one of them with the only GPU, and a node of one resource. -/
def oneGpu : Catalog where
  snapshot := 1
  resources :=
    [⟨1, .alive, none, none, [("network_address", "a"), ("gpu", "yes")]⟩,
      ⟨2, .alive, none, none, [("network_address", "a"), ("gpu", "no")]⟩,
      ⟨3, .alive, none, none, [("network_address", "b"), ("gpu", "no")]⟩]
  distinct := by decide

def wholeNode : Part := ⟨none, [⟨"network_address", 1⟩]⟩

def withGpu : Part := ⟨some "gpu='yes'", [⟨"resource_id", 1⟩]⟩

theorem suits_wholeNode : Suits oneGpu none wholeNode (.single 2) := by
  have hgroup : oneGpu.groupOf "network_address" oneGpu.defaults "b" = .single 2 := by
    decide +kernel
  refine ⟨⟨2, OrdinalSet.mem_single.2 rfl⟩, oneGpu.defaults, rfl,
    OrdinalSet.subset_iff.1 (by decide +kernel), .bottom ["b"] (by decide) rfl ?_ fun o => ?_⟩
  · intro v hv
    obtain rfl := List.mem_singleton.1 hv
    exact ⟨2, hgroup ▸ OrdinalSet.mem_single.2 rfl⟩
  · simp only [List.mem_singleton, exists_eq_left, hgroup]

theorem suits_withGpu : Suits oneGpu none withGpu (.single 0) := by
  have hadmitted : oneGpu.admissible none withGpu = .ok (.single 0) := by decide +kernel
  have hgroup : oneGpu.groupOf "resource_id" (.single 0) "1" = .single 0 := by decide +kernel
  refine ⟨⟨0, OrdinalSet.mem_single.2 rfl⟩, .single 0, hadmitted, fun o ho => ho,
    .bottom ["1"] (by decide) rfl ?_ fun o => ?_⟩
  · intro v hv
    obtain rfl := List.mem_singleton.1 hv
    exact ⟨0, hgroup ▸ OrdinalSet.mem_single.2 rfl⟩
  · simp only [List.mem_singleton, exists_eq_left, hgroup]

/-- The part with the GPU comes first, and the other node is out of its reach. -/
theorem candidate_ne_unsatisfiable_oneGpu :
    let uses : List Matcher.Use := [.bind oneGpu]
    let a : Alternative := ⟨10, 60, [withGpu, wholeNode]⟩
    let sets : List OrdinalSet := [.single 0, .single 2]
    Matcher.SnapshotsApart (oneGpu :: uses.map Matcher.Use.catalog) ∧
      a.walltime ≤ Time.lastInstant ∧ List.Forall₂ (Suits oneGpu none) a.parts sets ∧
      OutOfReach oneGpu none a.parts sets ∧
      ((Matcher.after uses).candidate oneGpu none a).2 ≠
        .error (.unsatisfiable (.clusterTooSmall 10)) := by
  intro uses a sets
  have hapart : Matcher.SnapshotsApart (oneGpu :: uses.map Matcher.Use.catalog) := by
    intro c hc d hd _
    simp only [uses, List.map_cons, List.map_nil, Matcher.Use.catalog, List.mem_cons,
      List.not_mem_nil, or_false, or_self] at hc hd
    rw [hc, hd]
  have hwalltime : a.walltime ≤ Time.lastInstant := by decide
  have hsets : List.Forall₂ (Suits oneGpu none) a.parts sets :=
    .cons suits_withGpu (.cons suits_wholeNode .nil)
  have hreach : OutOfReach oneGpu none a.parts sets := by
    refine ⟨fun admissible hadmissible s hs => ?_, fun _ _ s hs => ?_, trivial⟩
    · have hadmitted : oneGpu.admissible none withGpu = .ok (.single 0) := by decide +kernel
      rw [hadmitted, Except.ok.injEq] at hadmissible
      obtain rfl := List.mem_singleton.1 hs
      subst hadmissible
      intro o ho ho'
      rw [OrdinalSet.mem_single] at ho ho'
      omega
    · cases hs
  exact ⟨hapart, hwalltime, hsets, hreach,
    candidate_ne_unsatisfiable hapart hwalltime hsets hreach _⟩

/-- The part for a node comes first and takes the node with the GPU, so the other part finds none. -/
theorem unsatisfiable_of_greedy_node :
    ¬ ∀ (c : Catalog) (jobFilter : Option String) (a : Alternative) (sets : List OrdinalSet),
      0 < a.walltime → a.walltime ≤ Time.lastInstant → sets.Pairwise OrdinalSet.Disjoint →
      List.Forall₂ (Suits c jobFilter) a.parts sets → ∀ shortage,
        (Matcher.empty.candidate c jobFilter a).2 ≠ .error (.unsatisfiable shortage) := by
  intro h
  have hanswer : (Matcher.empty.candidate oneGpu none ⟨10, 60, [wholeNode, withGpu]⟩).2 =
      .error (.unsatisfiable (.clusterTooSmall 10)) := by
    decide +kernel
  have hdisjoint : [OrdinalSet.single 2, .single 0].Pairwise OrdinalSet.Disjoint := by
    refine .cons (fun s hs => ?_) (List.pairwise_singleton _ _)
    obtain rfl := List.mem_singleton.1 hs
    intro o ho ho'
    rw [OrdinalSet.mem_single] at ho ho'
    omega
  exact h oneGpu none ⟨10, 60, [wholeNode, withGpu]⟩ [.single 2, .single 0] (by decide) (by decide)
    hdisjoint (.cons suits_wholeNode (.cons suits_withGpu .nil)) _ hanswer

end OneGpu

end ClusterPlan
