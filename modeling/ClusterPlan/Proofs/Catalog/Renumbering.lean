import ClusterPlan.Pass.Standing
import ClusterPlan.Proofs.Catalog.Ids

/-!
Placements from one catalog to the next. A catalog numbers its resources anew, in whatever order they
come out of sorting, while rows keep ids. What a row was written for is read from it as the same
resources by every catalog that has them, whatever their ordinals are there.
-/

namespace ClusterPlan

namespace Catalog

variable {c d : Catalog} {ids : List Int} {s t : OrdinalSet} {row : GanttRow}

/-- The ids have as many ordinals, from zero on, each one of its own. -/
structure Numbers (c : Catalog) (ids : List Int) : Prop where
  ordinal_iff : ∀ o, (c.idOf? o).isSome = true ↔ o < ids.length
  id_iff : ∀ id, (c.ordinalOf? id).isSome = true ↔ id ∈ ids
  inverse : ∀ id o, c.ordinalOf? id = some o ↔ c.idOf? o = some id

/-- Sets of ordinals and lists of known ids are turned into one another, and nothing is lost but the
order of the ids and repetitions among them. -/
structure Translates (c : Catalog) : Prop where
  found : ∀ s : OrdinalSet, (∀ o ∈ s, o < c.size) → c.ofIds (c.toIds s) = .ok s
  named : ∀ ids : List Int, (∀ id ∈ ids, (c.ordinalOf? id).isSome = true) →
    ∃ s, c.ofIds ids = .ok s ∧ (∀ o ∈ s, o < c.size) ∧ (c.toIds s).Perm ids.dedup

/-- The row keeps the set `s` of `c` as ids in ascending order, and `d` reads from it the set `t` of the
same resources. A pass over `d` loads the row without a notice. -/
structure Rereads (c d : Catalog) (s : OrdinalSet) (row : GanttRow) (t : OrdinalSet) : Prop where
  ascending : row.resources.Pairwise (· < ·)
  listed : row.resources.Perm (c.toIds s)
  read : d.ofIds row.resources = .ok t
  same : ∀ p, p ∈ t ↔ ∃ o ∈ s, ∃ id, c.idOf? o = some id ∧ d.idOf? p = some id
  loaded : ∀ (f : Frame) (state : PassState), f.catalog = d →
    state.rowResources f row = (state, t)

/-- Sorting neither loses a resource nor brings one in, whatever it sorts by. -/
theorem perm_of_build {n : Nat} {order : List String} {resources : List Resource}
    (h : build n order resources = .ok c) : c.resources.Perm resources := by
  simp only [build] at h
  split at h
  · cases h
    exact List.mergeSort_perm _ _
  · cases h

theorem numbers_of_perm (h : (c.resources.map Resource.id).Perm ids) : c.Numbers ids where
  ordinal_iff o := by rw [isSome_idOf?_iff, size, ← h.length_eq, List.length_map]
  id_iff _ := isSome_ordinalOf?_iff.trans h.mem_iff
  inverse _ _ := ordinalOf?_eq_some_iff

theorem translates (c : Catalog) : c.Translates where
  found s hs := by
    refine ofIds_eq_ok_iff.2 ⟨fun id hid => ?_, ?_⟩
    · obtain ⟨o, -, ho⟩ := mem_toIds.1 hid
      exact Option.isSome_of_eq_some (ordinalOf?_eq_some_iff.2 ho)
    · exact (knownIds_toIds fun o ho => isSome_idOf?_iff.2 (hs o ho)).symm
  named ids hknown := by
    refine ⟨c.knownIds ids, ofIds_eq_ok_iff.2 ⟨hknown, rfl⟩, fun o ho => ?_,
      toIds_knownIds_perm hknown⟩
    obtain ⟨id, -, hid⟩ := mem_knownIds.1 ho
    exact isSome_idOf?_iff.1 (Option.isSome_of_eq_some hid)

theorem mem_knownIds_toIds {p : Nat} :
    p ∈ d.knownIds (c.toIds s) ↔ ∃ o ∈ s, ∃ id, c.idOf? o = some id ∧ d.idOf? p = some id := by
  simp only [mem_knownIds, mem_toIds]
  constructor
  · rintro ⟨id, ⟨o, ho, hid⟩, hp⟩
    exact ⟨o, ho, id, hid, hp⟩
  · rintro ⟨o, ho, id, hid, hp⟩
    exact ⟨id, ⟨o, ho, hid⟩, hp⟩

theorem rowResources_of_read {f : Frame} (state : PassState)
    (h : f.catalog.ofIds row.resources = .ok t) : state.rowResources f row = (state, t) := by
  rw [PassState.rowResources, h]

/-- A catalog reads the rows of any other whose resources it has. -/
theorem rereads_of_subset (hids : c.resources.map Resource.id ⊆ d.resources.map Resource.id)
    (s : OrdinalSet) (job alternative start walltime : Int) :
    Rereads c d s (.ofPlacement job alternative start walltime (c.toIds s))
      (d.knownIds (c.toIds s)) := by
  have hread : d.ofIds (ascending (c.toIds s)) = .ok (d.knownIds (c.toIds s)) := by
    refine ofIds_eq_ok_iff.2 ⟨fun id hid => ?_, knownIds_congr fun _ => mem_ascending.symm⟩
    obtain ⟨o, -, ho⟩ := mem_toIds.1 (mem_ascending.1 hid)
    have hknown := Option.isSome_of_eq_some (ordinalOf?_eq_some_iff.2 ho)
    exact isSome_ordinalOf?_iff.2 (hids (isSome_ordinalOf?_iff.1 hknown))
  refine ⟨pairwise_ascending _, perm_ascending (c.nodup_toIds s), hread,
    fun _ => mem_knownIds_toIds, fun f state hcatalog => ?_⟩
  subst hcatalog
  exact rowResources_of_read state hread

/-- Catalogs of the same ids number them up to the same bound, and what was placed under one of them
stays on its resources under the other. -/
theorem rereads_of_build {n m : Nat} {order order' : List String}
    {resources resources' : List Resource} (hc : build n order resources = .ok c)
    (hd : build m order' resources' = .ok d)
    (hids : ∀ id, id ∈ resources.map Resource.id ↔ id ∈ resources'.map Resource.id) :
    c.Numbers (resources.map Resource.id) ∧ d.Numbers (resources.map Resource.id) ∧
      c.Translates ∧ d.Translates ∧
      ∀ (s : OrdinalSet) (job alternative start walltime : Int), ∃ t,
        Rereads c d s (.ofPlacement job alternative start walltime (c.toIds s)) t := by
  have hcperm := (perm_of_build hc).map Resource.id
  have hdperm := (perm_of_build hd).map Resource.id
  have hsame : ∀ id, id ∈ c.resources.map Resource.id ↔ id ∈ d.resources.map Resource.id :=
    fun id => by rw [hcperm.mem_iff, hids, hdperm.mem_iff]
  -- No catalog has an id twice, so the same ids are as many in both.
  have hperm := (List.perm_ext_iff_of_nodup c.distinct d.distinct).2 hsame
  refine ⟨numbers_of_perm hcperm, numbers_of_perm (hperm.symm.trans hcperm), c.translates,
    d.translates, fun s job alternative start walltime => ⟨d.knownIds (c.toIds s), ?_⟩⟩
  exact rereads_of_subset (fun id => (hsame id).1) s job alternative start walltime

/-- Two nodes with two resources each. -/
def onNodes : List Resource :=
  [⟨3, .alive, none, none, [("network_address", "b")]⟩,
    ⟨1, .alive, none, none, [("network_address", "b")]⟩,
    ⟨4, .absent, none, none, [("network_address", "a")]⟩,
    ⟨2, .dead, none, none, [("network_address", "a")]⟩]

/-- The same ids later: other states, racks instead of nodes, one resource outside them. -/
def inRacks : List Resource :=
  [⟨4, .alive, none, none, []⟩, ⟨1, .suspected, some 50, none, [("rack", "9")]⟩,
    ⟨3, .alive, none, none, [("rack", "10")]⟩, ⟨2, .alive, none, none, [("rack", "9")]⟩]

def byNode : Catalog where
  snapshot := 1
  resources :=
    [⟨2, .dead, none, none, [("network_address", "a")]⟩,
      ⟨4, .absent, none, none, [("network_address", "a")]⟩,
      ⟨1, .alive, none, none, [("network_address", "b")]⟩,
      ⟨3, .alive, none, none, [("network_address", "b")]⟩]
  distinct := by decide

def byRack : Catalog where
  snapshot := 2
  resources :=
    [⟨1, .suspected, some 50, none, [("rack", "9")]⟩, ⟨2, .alive, none, none, [("rack", "9")]⟩,
      ⟨3, .alive, none, none, [("rack", "10")]⟩, ⟨4, .alive, none, none, []⟩]
  distinct := by decide

/-- Neighbours at the border of two nodes are first and last by rack, and their ids change places in
the row. -/
theorem rereads_of_build_byRack :
    build 1 ["network_address"] onNodes = .ok byNode ∧ build 2 ["rack"] inRacks = .ok byRack ∧
      (∀ id, id ∈ onNodes.map Resource.id ↔ id ∈ inRacks.map Resource.id) ∧
      byNode.Numbers [3, 1, 4, 2] ∧ byRack.Numbers [3, 1, 4, 2] ∧
      byNode.toIds (.ofIds [1, 2]) = [4, 1] ∧
      Rereads byNode byRack (.ofIds [1, 2]) ⟨7, 70, 100, 60, [1, 4]⟩ (.ofIds [0, 3]) := by
  have hc : build 1 ["network_address"] onNodes = .ok byNode := by
    simp +decide [build, onNodes, byNode, List.mergeSort, List.MergeSort.Internal.splitInTwo]
  have hd : build 2 ["rack"] inRacks = .ok byRack := by
    simp +decide [build, inRacks, byRack, List.mergeSort, List.MergeSort.Internal.splitInTwo]
  have hids : ∀ id, id ∈ onNodes.map Resource.id ↔ id ∈ inRacks.map Resource.id := by
    intro id
    simp [onNodes, inRacks]
    omega
  have htoIds : byNode.toIds (.ofIds [1, 2]) = [4, 1] := by decide +kernel
  have hread : byRack.ofIds [1, 4] = .ok (.ofIds [0, 3]) := by rfl
  obtain ⟨hnumbers, hnumbers', -, -, hrereads⟩ := rereads_of_build hc hd hids
  obtain ⟨t, ht⟩ := hrereads (.ofIds [1, 2]) 7 70 100 60
  have hrow : GanttRow.ofPlacement 7 70 100 60 (byNode.toIds (.ofIds [1, 2])) =
      ⟨7, 70, 100, 60, [1, 4]⟩ := by
    decide +kernel
  rw [hrow] at ht
  cases Except.ok.inj (hread.symm.trans ht.read)
  exact ⟨hc, hd, hids, hnumbers, hnumbers', htoIds, ht⟩

end Catalog

end ClusterPlan
