import ClusterPlan.Proofs.Catalog.Groups
import ClusterPlan.Proofs.Table

/-!
Ids and ordinals of one catalog. Each stands for the other, so a set of resources that was turned into
ids is found again, and ids that were turned into a set come back in the order of the catalog.
-/

namespace ClusterPlan

theorem mem_ascending {ids : List Int} {k : Int} : k ∈ ascending ids ↔ k ∈ ids := by
  rw [ascending, Table.ofList, Table.mem_foldl_put_id]
  simp

theorem pairwise_ascending (ids : List Int) : (ascending ids).Pairwise (· < ·) :=
  Table.ascending_ofList ids

/-- Numbers without repetitions are only put in order. -/
theorem perm_ascending {ids : List Int} (h : ids.Nodup) : (ascending ids).Perm ids := by
  have hdistinct : (ascending ids).Nodup := (pairwise_ascending ids).imp fun hlt => Int.ne_of_lt hlt
  exact (List.perm_ext_iff_of_nodup hdistinct h).2 fun _ => mem_ascending

namespace Catalog

variable {c : Catalog} {id : Int} {o p : Nat} {s : OrdinalSet} {ids ids' : List Int}

theorem ordinalOf?_eq_some_iff : c.ordinalOf? id = some o ↔ c.idOf? o = some id := by
  simp only [ordinalOf?, idOf?, resource?, Option.map_eq_some_iff]
  constructor
  · intro h
    obtain ⟨hlt, hid, _⟩ := List.findIdx?_eq_some_iff_getElem.1 h
    exact ⟨c.resources[o], List.getElem?_eq_getElem hlt, by simpa using hid⟩
  · rintro ⟨r, hr, rfl⟩
    obtain ⟨hlt, rfl⟩ := List.getElem?_eq_some_iff.1 hr
    refine List.findIdx?_eq_some_iff_getElem.2 ⟨hlt, beq_self_eq_true _, fun j hj hid => ?_⟩
    -- Two places with one id would be two resources with one id.
    have hdistinct := List.pairwise_iff_getElem.1 c.distinct j o (by simp; omega) (by simpa) hj
    simp only [List.getElem_map] at hdistinct
    exact hdistinct (by simpa using hid)

/-- No two ordinals have one id. -/
theorem eq_of_idOf?_eq_some (ho : c.idOf? o = some id) (hp : c.idOf? p = some id) : o = p := by
  rw [← ordinalOf?_eq_some_iff] at ho hp
  exact Option.some.inj (ho.symm.trans hp)

theorem isSome_idOf?_iff : (c.idOf? o).isSome = true ↔ o < c.size := by
  simp only [idOf?, Option.isSome_map, resource?, isSome_getElem?, size]

theorem isSome_ordinalOf?_iff :
    (c.ordinalOf? id).isSome = true ↔ id ∈ c.resources.map Resource.id := by
  simp only [ordinalOf?, List.findIdx?_isSome, List.any_eq_true, beq_iff_eq, List.mem_map]

theorem mem_knownIds : o ∈ c.knownIds ids ↔ ∃ id ∈ ids, c.idOf? o = some id := by
  simp only [knownIds, OrdinalSet.mem_ofIds, List.mem_filterMap, ordinalOf?_eq_some_iff]

theorem mem_toIds : id ∈ c.toIds s ↔ ∃ o ∈ s, c.idOf? o = some id := by
  simp only [toIds, List.mem_filterMap, OrdinalSet.mem_toList]

theorem knownIds_congr (h : ∀ id, id ∈ ids ↔ id ∈ ids') : c.knownIds ids = c.knownIds ids' :=
  OrdinalSet.ext_mem fun o => by simp only [mem_knownIds, h]

/-- Resources of the catalog are found again by their ids. -/
theorem knownIds_toIds (h : ∀ o ∈ s, (c.idOf? o).isSome = true) : c.knownIds (c.toIds s) = s := by
  refine OrdinalSet.ext_mem fun o => ?_
  rw [mem_knownIds]
  constructor
  · rintro ⟨id, hid, ho⟩
    obtain ⟨p, hp, hpid⟩ := mem_toIds.1 hid
    rwa [eq_of_idOf?_eq_some hpid ho] at hp
  · intro ho
    obtain ⟨id, hid⟩ := Option.isSome_iff_exists.1 (h o ho)
    exact ⟨id, mem_toIds.2 ⟨o, ho, hid⟩, hid⟩

/-- Translating fails on unknown ids only. -/
theorem ofIds_eq_ok_iff :
    c.ofIds ids = .ok s ↔ (∀ id ∈ ids, (c.ordinalOf? id).isSome = true) ∧ s = c.knownIds ids := by
  rw [ofIds]
  cases hunknown : ids.find? fun id => (c.ordinalOf? id).isNone with
  | some id =>
      have hid : c.ordinalOf? id = none := by simpa using List.find?_some hunknown
      refine iff_of_false (fun h => by cases h) fun h => ?_
      have hknown := h.1 id (List.mem_of_find?_eq_some hunknown)
      rw [hid] at hknown
      cases hknown
  | none =>
      have hknown : ∀ id ∈ ids, (c.ordinalOf? id).isSome = true := fun id hid => by
        simpa [Option.isSome_iff_ne_none] using List.find?_eq_none.1 hunknown id hid
      simp only [Except.ok.injEq, eq_comm (a := s)]
      exact (and_iff_right hknown).symm

theorem nodup_toIds (c : Catalog) (s : OrdinalSet) : (c.toIds s).Nodup :=
  s.toList_nodup.filterMap fun _ _ _ ho hp => eq_of_idOf?_eq_some ho hp

/-- Known ids come back, each once. -/
theorem toIds_knownIds_perm (h : ∀ id ∈ ids, (c.ordinalOf? id).isSome = true) :
    (c.toIds (c.knownIds ids)).Perm ids.dedup := by
  refine (List.perm_ext_iff_of_nodup (c.nodup_toIds _) ids.nodup_dedup).2 fun id => ?_
  simp only [mem_toIds, mem_knownIds, List.mem_dedup]
  constructor
  · rintro ⟨o, ⟨id', hid', ho'⟩, ho⟩
    exact Option.some.inj (ho.symm.trans ho') ▸ hid'
  · intro hid
    obtain ⟨o, ho⟩ := Option.isSome_iff_exists.1 (h id hid)
    have hback := ordinalOf?_eq_some_iff.1 ho
    exact ⟨o, ⟨id, hid, hback⟩, hback⟩

theorem isSome_idOf?_of_schedulable (h : o ∈ c.schedulable) : (c.idOf? o).isSome = true := by
  obtain ⟨r, hr, _⟩ := mem_schedulable.1 h
  rw [idOf?, hr]
  rfl

end Catalog

end ClusterPlan
