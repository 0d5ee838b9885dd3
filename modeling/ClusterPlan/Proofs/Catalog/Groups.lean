import ClusterPlan.Catalog.Basic
import ClusterPlan.Proofs.Lists
import ClusterPlan.Proofs.OrdinalSet.Leading
import Mathlib

/-!
How a catalog splits ordinals by a property. Every group is the set of all ordinals with one value, and
different groups have different values; under `resource_id` a value belongs to one resource only. Groups
have no common members, and they stand in the order of their least ones.
-/

namespace ClusterPlan

/-- Values stand in the order of their first entries. -/
theorem eraseDups_in_order {entries : List (Nat × String)}
    (h : entries.Pairwise fun d e => d.1 < e.1) :
    (entries.map (·.2)).eraseDups.Pairwise fun v w =>
      ∃ d ∈ entries, d.2 = v ∧ ∀ e ∈ entries, e.2 = w → d.1 < e.1 := by
  induction hlen : entries.length using Nat.strongRecOn generalizing entries with
  | _ n ih =>
      cases entries with
      | nil => exact .nil
      | cons first rest =>
          obtain ⟨hfirst, hrest⟩ := List.pairwise_cons.1 h
          have hothers : (rest.map (·.2)).filter (fun w => !w == first.2) =
              (rest.filter fun e => !e.2 == first.2).map (·.2) := List.filter_map
          have hshort : (rest.filter fun e => !e.2 == first.2).length < n := by
            have hle := List.length_filter_le (fun e => !e.2 == first.2) rest
            rw [List.length_cons] at hlen
            omega
          have hmem : ∀ {e : Nat × String}, e ∈ first :: rest → e.2 ≠ first.2 →
              e ∈ rest.filter fun e => !e.2 == first.2 := fun he hne => by
            rcases List.mem_cons.1 he with rfl | he
            · exact absurd rfl hne
            · exact List.mem_filter.2 ⟨he, by simpa using hne⟩
          have hne : ∀ w ∈ ((rest.filter fun e => !e.2 == first.2).map (·.2)).eraseDups,
              w ≠ first.2 := by
            intro w hw
            obtain ⟨e, he, rfl⟩ := List.mem_map.1 (List.mem_eraseDups.1 hw)
            simpa using (List.mem_filter.1 he).2
          rw [List.map_cons, List.eraseDups_cons, hothers, List.pairwise_cons]
          constructor
          · intro w hw
            refine ⟨first, List.mem_cons_self, rfl, fun e he hvalue => ?_⟩
            exact hfirst e (List.mem_filter.1 (hmem he (hvalue ▸ hne w hw))).1
          · refine (ih _ hshort (hrest.filter _) rfl).imp_of_mem fun {v w} _ hw hvw => ?_
            obtain ⟨d, hd, hv, hbelow⟩ := hvw
            refine ⟨d, List.mem_cons_of_mem _ (List.mem_filter.1 hd).1, hv, fun e he hvalue => ?_⟩
            exact hbelow e (hmem he (hvalue ▸ hne w hw)) hvalue

namespace Catalog

variable {c : Catalog} {o : Nat} {r : Resource} {property : String} {within : OrdinalSet}

/-- The value with which an ordinal answers to a property. -/
def valueAt? (c : Catalog) (property : String) (o : Nat) : Option String :=
  (c.resource? o).bind fun r => r.property property

/-- The members of `within` that have the value. -/
def groupOf (c : Catalog) (property : String) (within : OrdinalSet) (value : String) : OrdinalSet :=
  .ofIds (within.toList.filter fun o => c.valueAt? property o == some value)

@[simp] theorem mem_groupOf {value : String} :
    o ∈ c.groupOf property within value ↔ o ∈ within ∧ c.valueAt? property o = some value := by
  simp only [groupOf, OrdinalSet.mem_ofIds, List.mem_filter, OrdinalSet.mem_toList, beq_iff_eq]

theorem mem_ordinalsWhere {p : Resource → Bool} :
    o ∈ c.ordinalsWhere p ↔ ∃ r, c.resource? o = some r ∧ p r = true := by
  simp only [ordinalsWhere, ordinals, OrdinalSet.mem_ofIds, List.mem_map, List.mem_filter,
    List.mem_zipIdx_iff_getElem?, resource?]
  constructor
  · rintro ⟨⟨r, i⟩, ⟨hr, hp⟩, rfl⟩
    exact ⟨r, hr, hp⟩
  · rintro ⟨r, hr, hp⟩
    exact ⟨(r, o), ⟨hr, hp⟩, rfl⟩

theorem mem_schedulable :
    o ∈ c.schedulable ↔ ∃ r, c.resource? o = some r ∧ r.state ≠ .dead := by
  simp only [schedulable, mem_ordinalsWhere, Resource.isSchedulable, bne_iff_ne]

theorem defaults_subset (h : o ∈ c.defaults) : o ∈ c.schedulable := by
  obtain ⟨r, hr, hp⟩ := mem_ordinalsWhere.1 h
  exact mem_ordinalsWhere.2 ⟨r, hr, (Bool.and_eq_true _ _ ▸ hp).1⟩

/-- No two ordinals have the same id. -/
theorem eq_of_id_eq {o' : Nat} {r' : Resource} (h : c.resource? o = some r)
    (h' : c.resource? o' = some r') (hid : r.id = r'.id) : o = o' := by
  obtain ⟨ho, hr⟩ := List.getElem?_eq_some_iff.1 h
  obtain ⟨ho', hr'⟩ := List.getElem?_eq_some_iff.1 h'
  have hlen : o < (c.resources.map Resource.id).length := by rwa [List.length_map]
  have hlen' : o' < (c.resources.map Resource.id).length := by rwa [List.length_map]
  have hvalue : (c.resources.map Resource.id).get ⟨o, hlen⟩ =
      (c.resources.map Resource.id).get ⟨o', hlen'⟩ := by
    rw [List.get_eq_getElem, List.get_eq_getElem, List.getElem_map, List.getElem_map, hr, hr', hid]
  exact congrArg Fin.val (c.distinct.injective_get hvalue)

theorem valueAt?_id (h : c.resource? o = some r) :
    c.valueAt? Resource.idProperty o = some (toString r.id) := by
  rw [valueAt?, h, Option.bind_some, Resource.property, if_pos rfl]

/-- For a resource that is not dead the value by which it is grouped is the one that filters see. -/
theorem groupValue_eq (hid : property ≠ Resource.idProperty) (h : r.isSchedulable = true) :
    groupValue property r = r.property property := by
  simp only [groupValue, Resource.property, if_neg hid]
  by_cases htype : property = Resource.typeProperty
  · simp only [if_pos htype]
  · simp only [if_neg htype, h, if_true]
    cases r.properties.get? property <;> rfl

theorem mem_groupEntries {e : Nat × String} :
    e ∈ c.groupEntries property within ↔
      e.1 ∈ within ∧ ∃ r, c.resource? e.1 = some r ∧ groupValue property r = some e.2 := by
  simp only [groupEntries, List.mem_filterMap, List.mem_filter, List.mem_zipIdx_iff_getElem?,
    decide_eq_true_eq, resource?, Option.map_eq_some_iff]
  constructor
  · rintro ⟨⟨r, i⟩, ⟨hr, hi⟩, v, hv, rfl⟩
    exact ⟨hi, r, hr, hv⟩
  · rintro ⟨he, r, hr, hv⟩
    exact ⟨(r, e.1), ⟨hr, he⟩, e.2, hv, rfl⟩

theorem mem_ofIds_filter_value {entries : List (Nat × String)} {v : String} :
    o ∈ OrdinalSet.ofIds ((entries.filter fun e => e.2 == v).map (·.1)) ↔ (o, v) ∈ entries := by
  simp only [OrdinalSet.mem_ofIds, List.mem_map, List.mem_filter, beq_iff_eq]
  constructor
  · rintro ⟨⟨i, w⟩, ⟨he, rfl⟩, rfl⟩
    exact he
  · exact fun he => ⟨(o, v), ⟨he, rfl⟩, rfl⟩

theorem mem_groupEntries_iff_value (hwithin : ∀ o ∈ within, o ∈ c.schedulable)
    (hid : property ≠ Resource.idProperty) {v : String} :
    (o, v) ∈ c.groupEntries property within ↔
      o ∈ within ∧ c.valueAt? property o = some v := by
  rw [mem_groupEntries]
  refine and_congr_right fun ho => ?_
  obtain ⟨r, hr, hstate⟩ := mem_ordinalsWhere.1 (hwithin o ho)
  simp only [valueAt?, hr, Option.bind_some, Option.some.injEq, exists_eq_left',
    groupValue_eq hid hstate]

theorem eq_of_idValue_eq {o' : Nat} (h : o ∈ c.schedulable) (h' : o' ∈ c.schedulable)
    (hvalue : c.valueAt? Resource.idProperty o = c.valueAt? Resource.idProperty o') : o = o' := by
  obtain ⟨r, hr, _⟩ := mem_schedulable.1 h
  obtain ⟨r', hr', _⟩ := mem_schedulable.1 h'
  rw [valueAt?_id hr, valueAt?_id hr', Option.some.injEq, Int.toString_eq_repr,
    Int.toString_eq_repr, Int.repr_inj] at hvalue
  exact eq_of_id_eq hr hr' hvalue

/-- Each group holds all ordinals of one value, and every value that occurs has its own group. -/
theorem groups_eq (hwithin : ∀ o ∈ within, o ∈ c.schedulable) :
    ∃ values : List String, values.Nodup ∧
      c.groups property within = values.map (c.groupOf property within) ∧
      ∀ v, v ∈ values ↔ ∃ o, o ∈ c.groupOf property within v := by
  by_cases hid : property = Resource.idProperty
  · subst hid
    have hvalue : ∀ o ∈ within, ∃ v, c.valueAt? Resource.idProperty o = some v := by
      intro o ho
      obtain ⟨r, hr, _⟩ := mem_schedulable.1 (hwithin o ho)
      exact ⟨_, valueAt?_id hr⟩
    have hown : ∀ o ∈ within, c.valueAt? Resource.idProperty o =
        some ((c.valueAt? Resource.idProperty o).getD "") := by
      intro o ho
      obtain ⟨v, hv⟩ := hvalue o ho
      rw [hv, Option.getD_some]
    refine ⟨within.toList.map fun o => (c.valueAt? Resource.idProperty o).getD "", ?_, ?_, ?_⟩
    · refine within.toList_nodup.map_on fun o ho o' ho' heq => ?_
      rw [OrdinalSet.mem_toList] at ho ho'
      apply eq_of_idValue_eq (hwithin o ho) (hwithin o' ho')
      rw [hown o ho, hown o' ho', heq]
    · rw [groups, if_pos rfl, List.map_map]
      refine List.map_congr_left fun o ho => OrdinalSet.ext_mem fun o' => ?_
      rw [OrdinalSet.mem_toList] at ho
      simp only [OrdinalSet.mem_single, Function.comp_apply, mem_groupOf, ← hown o ho]
      constructor
      · rintro rfl
        exact ⟨ho, rfl⟩
      · rintro ⟨ho', heq⟩
        exact eq_of_idValue_eq (hwithin o' ho') (hwithin o ho) heq
    · intro v
      simp only [List.mem_map, OrdinalSet.mem_toList, mem_groupOf]
      refine exists_congr fun o => and_congr_right fun ho => ?_
      constructor
      · rintro rfl
        exact hown o ho
      · intro hv
        rw [hv, Option.getD_some]
  · refine ⟨((c.groupEntries property within).map (·.2)).eraseDups, nodup_eraseDups _, ?_, ?_⟩
    · rw [groups, if_neg hid]
      refine List.map_congr_left fun v _ => OrdinalSet.ext_mem fun o => ?_
      rw [mem_ofIds_filter_value, mem_groupEntries_iff_value hwithin hid, mem_groupOf]
    · intro v
      simp only [List.mem_eraseDups, List.mem_map, mem_groupOf,
        ← mem_groupEntries_iff_value hwithin hid]
      constructor
      · rintro ⟨⟨o, w⟩, he, rfl⟩
        exact ⟨o, he⟩
      · rintro ⟨o, he⟩
        exact ⟨(o, v), he, rfl⟩

/-- Groups are told apart by their members, since an ordinal has one value only. -/
theorem nodup_groups (c : Catalog) (property : String) (within : OrdinalSet) :
    (c.groups property within).Nodup := by
  by_cases hid : property = Resource.idProperty
  · rw [groups, if_pos hid]
    refine within.toList_nodup.map_on fun o _ o' _ heq => ?_
    exact OrdinalSet.mem_single.1 (heq ▸ OrdinalSet.mem_single.2 rfl)
  · rw [groups, if_neg hid]
    refine (nodup_eraseDups _).map_on fun v hv w _ heq => ?_
    obtain ⟨⟨o, v⟩, he, rfl⟩ := List.mem_map.1 (List.mem_eraseDups.1 hv)
    have hmem := mem_ofIds_filter_value.1 (heq ▸ mem_ofIds_filter_value.2 he)
    obtain ⟨-, r, hr, hv⟩ := mem_groupEntries.1 he
    obtain ⟨-, r', hr', hw⟩ := mem_groupEntries.1 hmem
    obtain rfl : r = r' := Option.some.inj (hr.symm.trans hr')
    exact Option.some.inj (hv.symm.trans hw)

theorem exists_mem_of_mem_groups {g : OrdinalSet} (h : g ∈ c.groups property within) :
    ∃ o, o ∈ g := by
  simp only [groups] at h
  split at h
  · obtain ⟨o, -, rfl⟩ := List.mem_map.1 h
    exact ⟨o, OrdinalSet.mem_single.2 rfl⟩
  · obtain ⟨v, hv, rfl⟩ := List.mem_map.1 h
    obtain ⟨e, he, rfl⟩ := List.mem_map.1 (List.mem_eraseDups.1 hv)
    exact ⟨e.1, mem_ofIds_filter_value.2 he⟩

theorem groupEntries_ascending (c : Catalog) (property : String) (within : OrdinalSet) :
    (c.groupEntries property within).Pairwise fun d e => d.1 < e.1 := by
  have hplaces : c.resources.zipIdx.Pairwise fun d e => d.2 < e.2 := by
    rw [← List.pairwise_map (f := Prod.snd), List.zipIdx_map_snd]
    exact List.pairwise_lt_range'
  refine (hplaces.filter _).filterMap _ fun d e hlt d' hd e' he => ?_
  obtain ⟨_, -, rfl⟩ := Option.map_eq_some_iff.1 hd
  obtain ⟨_, -, rfl⟩ := Option.map_eq_some_iff.1 he
  exact hlt

/-- Groups stand in the order of their least members. -/
theorem groups_in_order (c : Catalog) (property : String) (within : OrdinalSet) :
    (c.groups property within).Pairwise OrdinalSet.BeginsBefore := by
  rw [groups]
  split
  · refine within.toList_ascending.map _ fun o p hlt => ?_
    exact ⟨o, OrdinalSet.mem_single.2 rfl, fun q hq => OrdinalSet.mem_single.1 hq ▸ hlt⟩
  · refine (eraseDups_in_order (c.groupEntries_ascending property within)).map _ ?_
    rintro v w ⟨d, hd, rfl, hbelow⟩
    refine ⟨d.1, mem_ofIds_filter_value.2 hd, fun p hp => ?_⟩
    exact hbelow (p, w) (mem_ofIds_filter_value.1 hp) rfl

/-- An ordinal is in one group only. -/
theorem eq_of_mem_groups {g h : OrdinalSet} (hg : g ∈ c.groups property within)
    (hh : h ∈ c.groups property within) (hog : o ∈ g) (hoh : o ∈ h) : g = h := by
  simp only [groups] at hg hh
  split at hg
  · rename_i hid
    rw [if_pos hid] at hh
    obtain ⟨p, -, rfl⟩ := List.mem_map.1 hg
    obtain ⟨q, -, rfl⟩ := List.mem_map.1 hh
    rw [← OrdinalSet.mem_single.1 hog, ← OrdinalSet.mem_single.1 hoh]
  · rename_i hid
    rw [if_neg hid] at hh
    obtain ⟨v, -, rfl⟩ := List.mem_map.1 hg
    obtain ⟨w, -, rfl⟩ := List.mem_map.1 hh
    obtain ⟨-, r, hr, hv⟩ := mem_groupEntries.1 (mem_ofIds_filter_value.1 hog)
    obtain ⟨-, r', hr', hw⟩ := mem_groupEntries.1 (mem_ofIds_filter_value.1 hoh)
    obtain rfl : r = r' := Option.some.inj (hr.symm.trans hr')
    obtain rfl : v = w := Option.some.inj (hv.symm.trans hw)
    rfl

end Catalog

end ClusterPlan
