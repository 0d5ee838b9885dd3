import ClusterPlan.Matching.Matcher
import ClusterPlan.Proofs.Catalog.Groups
import ClusterPlan.Proofs.Matching.Selection

/-!
What a part of a request asks for, told by the values of the catalog alone. What is chosen from the
prepared groups of a part realises its levels.
-/

namespace ClusterPlan

/-- The set realises the levels over the admissible ordinals. At the bottom it is the union of exactly
`count` whole groups; above, it uses exactly `count` values, and what it has of each of them
realises the levels below. -/
inductive Realises (c : Catalog) (admissible : OrdinalSet) : List Level → OrdinalSet → Prop where
  | bottom {level : Level} {s : OrdinalSet} (values : List String) (distinct : values.Nodup)
      (count : values.length = level.count)
      (inhabited : ∀ v ∈ values, ∃ o, o ∈ c.groupOf level.property admissible v)
      (whole : ∀ o, o ∈ s ↔ ∃ v ∈ values, o ∈ c.groupOf level.property admissible v) :
      Realises c admissible [level] s
  | upper {level next : Level} {lower : List Level} {s : OrdinalSet}
      (choice : List (String × OrdinalSet)) (distinct : (choice.map Prod.fst).Nodup)
      (count : choice.length = level.count) (inhabited : ∀ e ∈ choice, ∃ o, o ∈ e.2)
      (inside : ∀ e ∈ choice, ∀ o ∈ e.2, o ∈ c.groupOf level.property admissible e.1)
      (below : ∀ e ∈ choice, Realises c admissible (next :: lower) e.2)
      (union : ∀ o, o ∈ s ↔ ∃ e ∈ choice, o ∈ e.2) :
      Realises c admissible (level :: next :: lower) s

/-- What a prepared level was asked for. -/
def GroupedLevel.level (l : GroupedLevel) : Level := ⟨l.property, l.count⟩

/-- A level with its groups over the admissible ordinals. -/
structure GroupedLevel.IsOf (c : Catalog) (admissible : OrdinalSet) (l : GroupedLevel) : Prop where
  count : l.count ≠ 0
  groups : l.groups = c.groups l.property admissible

section Realising

variable {c : Catalog} {admissible s : OrdinalSet} {levels : List GroupedLevel}

theorem exists_mem_of_realises {ls : List Level} (hcount : ∀ l ∈ ls, l.count ≠ 0)
    (h : Realises c admissible ls s) : ∃ o, o ∈ s := by
  cases h with
  | bottom values _ count inhabited whole =>
      obtain ⟨v, hv⟩ := List.exists_mem_of_length_pos (by
        rw [count]
        exact Nat.pos_of_ne_zero (hcount _ List.mem_cons_self))
      obtain ⟨o, ho⟩ := inhabited v hv
      exact ⟨o, (whole o).2 ⟨v, hv, ho⟩⟩
  | upper choice _ count inhabited _ _ union =>
      obtain ⟨e, he⟩ := List.exists_mem_of_length_pos (by
        rw [count]
        exact Nat.pos_of_ne_zero (hcount _ List.mem_cons_self))
      obtain ⟨o, ho⟩ := inhabited e he
      exact ⟨o, (union o).2 ⟨e, he, ho⟩⟩

/-- Groups that are taken in order are the groups of as many distinct values. -/
theorem values_of_taken {l : GroupedLevel} (hadmissible : ∀ o ∈ admissible, o ∈ c.schedulable)
    (hl : l.IsOf c admissible) {taken : List OrdinalSet} (h : taken.Sublist l.groups) :
    ∃ values : List String, values.Nodup ∧
      taken = values.map (c.groupOf l.property admissible) ∧
      ∀ v ∈ values, ∃ o, o ∈ c.groupOf l.property admissible v := by
  obtain ⟨all, hnodup, hgroups, hinhabited⟩ := Catalog.groups_eq hadmissible
  rw [hl.groups, hgroups, List.sublist_map_iff] at h
  obtain ⟨values, hsub, rfl⟩ := h
  exact ⟨values, hsub.nodup hnodup, rfl, fun v hv => (hinhabited v).1 (hsub.subset hv)⟩

theorem realises_of_fills (hadmissible : ∀ o ∈ admissible, o ∈ c.schedulable)
    (hlevels : ∀ l ∈ levels, l.IsOf c admissible) (h : Fills levels s) :
    Realises c admissible (levels.map GroupedLevel.level) s := by
  induction h with
  | bottom taken among count mem =>
      obtain ⟨values, hnodup, rfl, hinhabited⟩ :=
        values_of_taken hadmissible (hlevels _ List.mem_cons_self) among
      refine .bottom values hnodup ?_ hinhabited fun o => ?_
      · rw [List.length_map] at count
        exact count
      · rw [mem]
        simp only [List.mem_map, exists_exists_and_eq_and]
        rfl
  | @upper level next lower s taken among count inside below mem ih =>
      obtain ⟨values, hnodup, hvalues, _⟩ :=
        values_of_taken hadmissible (hlevels _ List.mem_cons_self) among
      obtain ⟨choice, rfl, rfl⟩ := exists_choice _ values taken hvalues
      have hlower : ∀ l ∈ next :: lower, l.IsOf c admissible := fun l hl =>
        hlevels l (List.mem_cons_of_mem _ hl)
      have hbelow : ∀ e ∈ choice,
          Realises c admissible ((next :: lower).map GroupedLevel.level) e.2 := fun e he =>
        ih _ (List.mem_map_of_mem he) hlower
      refine .upper choice hnodup ?_ ?_ ?_ hbelow fun o => ?_
      · rw [List.length_map] at count
        exact count
      · intro e he
        refine exists_mem_of_realises ?_ (hbelow e he)
        intro l hl
        obtain ⟨g, hg, rfl⟩ := List.mem_map.1 hl
        exact (hlower g hg).count
      · exact fun e he => inside _ (List.mem_map_of_mem he)
      · rw [mem]
        simp only [List.mem_map, exists_exists_and_eq_and]

end Realising

section Parts

variable {c : Catalog} {part : Part} {admissible : OrdinalSet} {l : Level}

theorem isOf_of_groupLevel {g : GroupedLevel} (h : c.groupLevel part admissible l = .ok g) :
    g.IsOf c admissible ∧ g.level = l := by
  simp only [Catalog.groupLevel] at h
  split at h
  · cases h
  · split at h
    · cases h
    · split at h
      · cases h
      · cases h
        exact ⟨⟨by assumption, rfl⟩, rfl⟩

/-- Under `resource_id` the groups are the admissible ordinals, one by one. -/
theorem singles_of_isOf {g : GroupedLevel} (h : g.IsOf c admissible) : g.Singles := by
  intro hid
  have hgroups : g.groups = admissible.toList.map OrdinalSet.single := by
    rw [h.groups, Catalog.groups, if_pos hid]
  have hmembers : g.members = admissible := by
    apply OrdinalSet.ext_mem
    intro o
    simp only [GroupedLevel.members, OrdinalSet.mem_unionAll, hgroups, List.mem_map,
      exists_exists_and_eq_and, OrdinalSet.mem_single, OrdinalSet.mem_toList, exists_eq_right']
  rw [hmembers]
  exact hgroups

theorem isOf_of_groupLevels {ls : List Level} {gs : List GroupedLevel}
    (h : List.Forall₂ (fun l g => c.groupLevel part admissible l = .ok g) ls gs) :
    gs.map GroupedLevel.level = ls ∧ ∀ g ∈ gs, g.IsOf c admissible := by
  induction h with
  | nil => exact ⟨rfl, List.forall_mem_nil _⟩
  | cons hl _ ih =>
      obtain ⟨hisOf, hlevel⟩ := isOf_of_groupLevel hl
      exact ⟨by rw [List.map_cons, ih.1, hlevel], List.forall_mem_cons.2 ⟨hisOf, ih.2⟩⟩

/-- A prepared part has the levels asked for, over the admissible ordinals. -/
theorem levels_of_groupPart {p : CandidatePart} (h : c.groupPart part admissible = .ok p) :
    p.admissible = admissible ∧ p.levels.map GroupedLevel.level = part.levels ∧
      ∀ g ∈ p.levels, g.IsOf c admissible := by
  simp only [Catalog.groupPart] at h
  split at h
  · cases h
  · cases hlevels : part.levels.mapM (c.groupLevel part admissible) with
    | error e =>
        rw [hlevels] at h
        cases h
    | ok levels =>
        rw [hlevels] at h
        cases h
        exact ⟨rfl, isOf_of_groupLevels (forall₂_of_mapM hlevels)⟩

/-- What is chosen for a prepared part realises the levels asked for. -/
theorem realises_of_served (hadmissible : ∀ o ∈ admissible, o ∈ c.schedulable)
    {p : CandidatePart} (h : c.groupPart part admissible = .ok p) {available s : OrdinalSet}
    (hs : p.Served available s) : Realises c admissible part.levels s := by
  obtain ⟨_, hmap, hall⟩ := levels_of_groupPart h
  rw [← hmap]
  apply realises_of_fills hadmissible hall
  exact fills_of_pickLevels? (fun g hg => (hall g hg).count)
    (fun g hg => singles_of_isOf (hall g hg)) hs.chosen

end Parts

end ClusterPlan
