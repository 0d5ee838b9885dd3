import ClusterPlan.Proofs.Catalog.Groups
import ClusterPlan.Proofs.Matching.Selection

/-!
Groups as a partition. Whichever property a catalog groups by, the groups of a set are its members
that answer to the property, parted by their values and told in the order of their least ordinals.
-/

namespace ClusterPlan

namespace OrdinalSet

variable {s t : OrdinalSet} {o : Nat}

theorem min?_eq_head? (s : OrdinalSet) : s.min? = s.toList.head? := by
  cases s with
  | mk ranges apart =>
      cases ranges with
      | nil => rfl
      | cons r rest =>
          have hsize : r.size = (r.hi - r.lo) + 1 := by
            have := r.lo_le_hi
            rw [Range.size]
            omega
          rw [min?, toList, List.flatMap_cons, Range.toList, hsize, List.range'_succ]
          rfl

/-- The least member of a set is the one that no other is below. -/
theorem min?_eq_some_iff : s.min? = some o ↔ o ∈ s ∧ ∀ p ∈ s, o ≤ p := by
  simp only [min?_eq_head?, ← mem_toList]
  have hascending := s.toList_ascending
  cases hlist : s.toList with
  | nil => simp
  | cons first rest =>
      rw [hlist] at hascending
      have hfirst := (List.pairwise_cons.1 hascending).1
      rw [List.head?_cons, Option.some.injEq, List.forall_mem_cons]
      constructor
      · rintro rfl
        exact ⟨List.mem_cons_self, Nat.le_refl _, fun p hp => Nat.le_of_lt (hfirst p hp)⟩
      · rintro ⟨ho, hle, _⟩
        rcases List.mem_cons.1 ho with rfl | ho
        · rfl
        · exact absurd (hfirst o ho) (Nat.not_lt.2 hle)

theorem exists_min?_of_mem (h : o ∈ s) : ∃ p, s.min? = some p := by
  have hne : s.toList ≠ [] := List.ne_nil_of_mem (mem_toList.2 h)
  rw [min?_eq_head?]
  exact ⟨_, List.head?_eq_some_head hne⟩

theorem BeginsBefore.min?_lt (h : s.BeginsBefore t) (ht : o ∈ t) :
    ∃ p q, s.min? = some p ∧ t.min? = some q ∧ p < q := by
  obtain ⟨x, hx, hbelow⟩ := h
  obtain ⟨p, hp⟩ := exists_min?_of_mem hx
  obtain ⟨q, hq⟩ := exists_min?_of_mem ht
  have hpx := (min?_eq_some_iff.1 hp).2 x hx
  have hxq := hbelow q (min?_eq_some_iff.1 hq).1
  exact ⟨p, q, hp, hq, by omega⟩

end OrdinalSet

namespace Catalog

variable {c : Catalog} {property : String} {within : OrdinalSet} {o p : Nat}

/-- The sets part the members of `within` that answer to the property by the values they give. -/
structure PartsByValue (c : Catalog) (property : String) (within : OrdinalSet)
    (sets : List OrdinalSet) : Prop where
  inhabited : ∀ g ∈ sets, ∃ o, o ∈ g
  disjoint : sets.Pairwise OrdinalSet.Disjoint
  ascending : sets.Pairwise fun g h => ∃ o p, g.min? = some o ∧ h.min? = some p ∧ o < p
  covers : ∀ o, (∃ g ∈ sets, o ∈ g) ↔
    o ∈ within ∧ ∃ r v, c.resource? o = some r ∧ r.property property = some v
  together : ∀ o p, (∃ g ∈ sets, o ∈ g ∧ p ∈ g) ↔
    o ∈ within ∧ p ∈ within ∧ ∃ r r' v, c.resource? o = some r ∧ c.resource? p = some r' ∧
      r.property property = some v ∧ r'.property property = some v

theorem valueAt?_eq_some_iff {v : String} :
    c.valueAt? property o = some v ↔ ∃ r, c.resource? o = some r ∧ r.property property = some v :=
  Option.bind_eq_some_iff

/-- Two ordinals are together in a group if they have one value. -/
theorem together_iff (property : String) (hwithin : ∀ o ∈ within, o ∈ c.schedulable) (o p : Nat) :
    (∃ g ∈ c.groups property within, o ∈ g ∧ p ∈ g) ↔
      o ∈ within ∧ p ∈ within ∧
        ∃ v, c.valueAt? property o = some v ∧ c.valueAt? property p = some v := by
  obtain ⟨values, -, hgroups, hvalues⟩ := @groups_eq c property within hwithin
  simp only [hgroups, List.mem_map, exists_exists_and_eq_and, mem_groupOf]
  constructor
  · rintro ⟨v, -, ⟨ho, hov⟩, hp, hpv⟩
    exact ⟨ho, hp, v, hov, hpv⟩
  · rintro ⟨ho, hp, v, hov, hpv⟩
    exact ⟨v, (hvalues v).2 ⟨o, mem_groupOf.2 ⟨ho, hov⟩⟩, ⟨ho, hov⟩, hp, hpv⟩

theorem pairwise_disjoint_groups (c : Catalog) (property : String) (within : OrdinalSet) :
    (c.groups property within).Pairwise OrdinalSet.Disjoint :=
  (c.nodup_groups property within).imp_of_mem fun hg hh hne _ hog hoh =>
    hne (eq_of_mem_groups hg hh hog hoh)

/-- Groups are the parts of a set by value. -/
theorem partsByValue_groups (hwithin : ∀ o ∈ within, o ∈ c.schedulable) :
    c.PartsByValue property within (c.groups property within) where
  inhabited _ hg := exists_mem_of_mem_groups hg
  disjoint := c.pairwise_disjoint_groups property within
  ascending := (c.groups_in_order property within).imp_of_mem fun _ hh hbegins =>
    hbegins.min?_lt (exists_mem_of_mem_groups hh).choose_spec
  covers o := by
    have htogether := together_iff property hwithin o o
    simpa only [and_self, and_self_left, valueAt?_eq_some_iff, exists_comm (α := String)] using
      htogether
  together o p := by
    rw [together_iff property hwithin]
    simp only [valueAt?_eq_some_iff]
    refine and_congr_right fun _ => and_congr_right fun _ => ?_
    constructor
    · rintro ⟨v, ⟨r, hr, hv⟩, r', hr', hv'⟩
      exact ⟨r, r', v, hr, hr', hv, hv'⟩
    · rintro ⟨r, r', v, hr, hr', hv, hv'⟩
      exact ⟨v, ⟨r, hr, hv⟩, r', hr', hv'⟩

/-- Types told and untold in mixed order, the third resource dead. -/
def mixedTypes : Catalog where
  snapshot := 1
  resources :=
    [⟨1, .alive, none, none, [("type", "gpu")]⟩, ⟨2, .absent, none, none, []⟩,
      ⟨3, .dead, none, none, [("type", "disk")]⟩, ⟨4, .alive, none, none, [("type", "default")]⟩,
      ⟨5, .suspected, none, none, [("type", "gpu")]⟩]
  distinct := by decide

/-- The resource without a type is with the one that tells the default. -/
theorem partsByValue_groups_mixedTypes :
    (∀ o ∈ OrdinalSet.ofIds [0, 1, 3, 4], o ∈ mixedTypes.schedulable) ∧
      mixedTypes.groups "type" (.ofIds [0, 1, 3, 4]) = [.ofIds [0, 4], .ofIds [1, 3]] ∧
      mixedTypes.PartsByValue "type" (.ofIds [0, 1, 3, 4]) [.ofIds [0, 4], .ofIds [1, 3]] := by
  have hwithin : ∀ o ∈ OrdinalSet.ofIds [0, 1, 3, 4], o ∈ mixedTypes.schedulable := by
    intro o ho
    rw [OrdinalSet.mem_ofIds] at ho
    revert o
    decide +kernel
  have hgroups : mixedTypes.groups "type" (.ofIds [0, 1, 3, 4]) =
      [.ofIds [0, 4], .ofIds [1, 3]] := by
    decide +kernel
  exact ⟨hwithin, hgroups, hgroups ▸ partsByValue_groups hwithin⟩

end Catalog

end ClusterPlan
