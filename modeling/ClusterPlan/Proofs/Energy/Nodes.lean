import ClusterPlan.Energy
import ClusterPlan.Proofs.Catalog.Ids

/-!
Power orders for resources and for nodes. A resource is ordered to sleep or to wake by its own state,
so no resource gets both orders. A node is named with each of its resources, and one of which some
resources are up and others are not may be named for both.
-/

namespace ClusterPlan

theorem Text.mem_ascending {texts : List String} {t : String} :
    t ∈ Text.ascending texts ↔ t ∈ texts := by
  rw [Text.ascending, List.mem_eraseDups, List.mem_mergeSort]

namespace Catalog

variable {c : Catalog} {e : EnergySaving} {needs : EnergyNeeds} {state : ResourceState}
  {s : OrdinalSet} {o : Nat} {r : Resource} {n : String}

theorem mem_inState : o ∈ c.inState state ↔ ∃ r, c.resource? o = some r ∧ r.state = state := by
  simp only [inState, mem_ordinalsWhere, beq_iff_eq]

theorem nodeOf?_eq_some_iff :
    c.nodeOf? o = some n ↔ ∃ r, c.resource? o = some r ∧ r.node = some n :=
  Option.bind_eq_some_iff

theorem id_mem_toIds (hr : c.resource? o = some r) : r.id ∈ c.toIds s ↔ o ∈ s := by
  have hid : c.idOf? o = some r.id := by rw [idOf?, hr, Option.map_some]
  rw [mem_toIds]
  constructor
  · rintro ⟨p, hp, hpid⟩
    exact eq_of_idOf?_eq_some hpid hid ▸ hp
  · exact fun ho => ⟨o, ho, hid⟩

theorem exists_of_mem_toIds {id : Int} (h : id ∈ c.toIds s) :
    ∃ o r, c.resource? o = some r ∧ r.id = id ∧ o ∈ s := by
  obtain ⟨o, ho, hid⟩ := mem_toIds.1 h
  obtain ⟨r, hr, rfl⟩ := Option.map_eq_some_iff.1 hid
  exact ⟨o, r, hr, rfl, ho⟩

theorem mem_nodeNames : n ∈ c.nodeNames s ↔ ∃ o ∈ s, c.nodeOf? o = some n := by
  simp only [nodeNames, Text.mem_ascending, List.mem_filterMap, OrdinalSet.mem_toList]

/-- The resources that satisfy `p` on a node of the list. -/
theorem mem_ordinalsWhere_node {p : Resource → Bool} {nodes : List String} :
    o ∈ c.ordinalsWhere (fun r => p r && r.node.any fun n => nodes.contains n) ↔
      o ∈ c.ordinalsWhere p ∧ ∃ n, c.nodeOf? o = some n ∧ n ∈ nodes := by
  simp only [mem_ordinalsWhere, nodeOf?_eq_some_iff, Bool.and_eq_true, Option.any_eq_true,
    List.contains_iff_mem]
  constructor
  · rintro ⟨r, hr, hp, n, hn, hmem⟩
    exact ⟨⟨r, hr, hp⟩, n, ⟨r, hr, hn⟩, hmem⟩
  · rintro ⟨⟨r, hr, hp⟩, n, ⟨r', hr', hn⟩, hmem⟩
    cases hr.symm.trans hr'
    exact ⟨r, hr, hp, n, hn, hmem⟩

theorem mem_wholeNodes : o ∈ c.wholeNodes s state ↔
    o ∈ s ∨ o ∈ c.inState state ∧ ∃ n, c.nodeOf? o = some n ∧ ∃ p ∈ s, c.nodeOf? p = some n := by
  rw [wholeNodes, OrdinalSet.mem_union, mem_ordinalsWhere_node]
  simp only [List.mem_filterMap, OrdinalSet.mem_toList]
  rfl

theorem mem_restable : o ∈ c.restable e needs ↔
    ∃ r, c.resource? o = some r ∧ r.state = .alive ∧ e.mayRest needs.now r = true ∧
      o ∉ needs.busy := by
  simp only [restable, OrdinalSet.mem_sdiff, mem_ordinalsWhere, Bool.and_eq_true, beq_iff_eq]
  constructor
  · rintro ⟨⟨r, hr, hstate, hrest⟩, hbusy⟩
    exact ⟨r, hr, hstate, hrest, hbusy⟩
  · rintro ⟨r, hr, hstate, hrest, hbusy⟩
    exact ⟨⟨r, hr, hstate, hrest⟩, hbusy⟩

theorem alive_of_restable (h : o ∈ c.restable e needs) : o ∈ c.inState .alive := by
  obtain ⟨r, hr, hstate, _⟩ := mem_restable.1 h
  exact mem_inState.2 ⟨r, hr, hstate⟩

/-- A resource sleeps if it is restable, and with it all that is up on its node. -/
theorem mem_sleepers : o ∈ c.sleepers e needs ↔ o ∈ c.restable e needs ∧
    ∀ n, c.nodeOf? o = some n → ∀ p ∈ c.inState .alive, c.nodeOf? p = some n →
      p ∈ c.restable e needs := by
  have hnode := @mem_ordinalsWhere_node c o (fun _ => true)
    ((c.inState .alive \ c.restable e needs).toList.filterMap c.nodeOf?)
  simp only [Bool.true_and] at hnode
  rw [sleepers, OrdinalSet.mem_sdiff, hnode]
  refine and_congr_right fun ho => ?_
  obtain ⟨r, hr, _⟩ := mem_restable.1 ho
  simp only [mem_ordinalsWhere, List.mem_filterMap, OrdinalSet.mem_toList, OrdinalSet.mem_sdiff]
  constructor
  · intro hnone n hn p hp hpn
    by_contra hbusy
    exact hnone ⟨⟨r, hr, trivial⟩, n, hn, p, ⟨hp, hbusy⟩, hpn⟩
  · rintro hall ⟨-, n, hn, p, ⟨hp, hbusy⟩, hpn⟩
    exact hbusy (hall n hn p hp hpn)

theorem alive_of_sleepers (h : o ∈ c.sleepers e needs) : o ∈ c.inState .alive :=
  alive_of_restable (mem_sleepers.1 h).1

/-- What is up on the node of a sleeper sleeps too. -/
theorem sleepers_of_node {p : Nat} (h : o ∈ c.sleepers e needs) (hn : c.nodeOf? o = some n)
    (hp : p ∈ c.inState .alive) (hpn : c.nodeOf? p = some n) : p ∈ c.sleepers e needs := by
  have hall := (mem_sleepers.1 h).2 n hn
  refine mem_sleepers.2 ⟨hall p hp hpn, fun n' hn' q hq hqn => ?_⟩
  obtain rfl : n = n' := Option.some.inj (hpn.symm.trans hn')
  exact hall q hq hqn

theorem absent_of_wakes (h : o ∈ c.wholeNodes (s ∩ c.inState .absent) .absent) :
    o ∈ c.inState .absent := by
  rcases mem_wholeNodes.1 h with ho | ⟨ho, _⟩
  · exact (OrdinalSet.mem_inter.1 ho).2
  · exact ho

theorem exists_of_mem_sleep {id : Int} (h : id ∈ (c.energyDecision e needs).sleep) :
    ∃ o r, c.resource? o = some r ∧ r.id = id ∧ r.state = .alive := by
  obtain ⟨o, r, hr, rfl, ho⟩ := exists_of_mem_toIds h
  obtain ⟨r', hr', halive⟩ := mem_inState.1 (alive_of_sleepers ho)
  cases hr.symm.trans hr'
  exact ⟨o, r, hr, rfl, halive⟩

theorem exists_of_mem_wakeup {id : Int} (h : id ∈ (c.energyDecision e needs).wakeup) :
    ∃ o r, c.resource? o = some r ∧ r.id = id ∧ r.state = .absent := by
  obtain ⟨o, r, hr, rfl, ho⟩ := exists_of_mem_toIds h
  obtain ⟨r', hr', habsent⟩ := mem_inState.1 (absent_of_wakes ho)
  cases hr.symm.trans hr'
  exact ⟨o, r, hr, rfl, habsent⟩

theorem mem_wakeup_of_wanted (hr : c.resource? o = some r) (habsent : r.state = .absent)
    (hwanted : o ∈ needs.wanted) : r.id ∈ (c.energyDecision e needs).wakeup := by
  have hstate : o ∈ c.inState .absent := mem_inState.2 ⟨r, hr, habsent⟩
  exact (id_mem_toIds hr).2 (mem_wholeNodes.2 (Or.inl (OrdinalSet.mem_inter.2 ⟨hwanted, hstate⟩)))

theorem mem_sleepNodes : n ∈ (c.energyDecision e needs).sleepNodes ↔
    (∃ o ∈ c.inState .alive, c.nodeOf? o = some n) ∧
      ∀ o ∈ c.inState .alive, c.nodeOf? o = some n → o ∈ c.restable e needs := by
  rw [energyDecision, mem_nodeNames]
  constructor
  · rintro ⟨o, ho, hn⟩
    exact ⟨⟨o, alive_of_sleepers ho, hn⟩, (mem_sleepers.1 ho).2 n hn⟩
  · rintro ⟨⟨o, ho, hn⟩, hall⟩
    refine ⟨o, mem_sleepers.2 ⟨hall o ho hn, fun n' hn' => ?_⟩, hn⟩
    obtain rfl : n = n' := Option.some.inj (hn.symm.trans hn')
    exact hall

theorem mem_wakeupNodes : n ∈ (c.energyDecision e needs).wakeupNodes ↔
    ∃ o ∈ needs.wanted, o ∈ c.inState .absent ∧ c.nodeOf? o = some n := by
  rw [energyDecision, mem_nodeNames]
  constructor
  · rintro ⟨o, ho, hn⟩
    rcases mem_wholeNodes.1 ho with ho | ⟨-, n', hn', p, hp, hpn⟩
    · exact ⟨o, (OrdinalSet.mem_inter.1 ho).1, (OrdinalSet.mem_inter.1 ho).2, hn⟩
    · obtain rfl : n = n' := Option.some.inj (hn.symm.trans hn')
      exact ⟨p, (OrdinalSet.mem_inter.1 hp).1, (OrdinalSet.mem_inter.1 hp).2, hpn⟩
  · rintro ⟨o, hwanted, ho, hn⟩
    exact ⟨o, mem_wholeNodes.2 (Or.inl (OrdinalSet.mem_inter.2 ⟨hwanted, ho⟩)), hn⟩

/-- A node that is partly up and partly absent: all that is up may rest and is not claimed, and
something that is absent is wanted. -/
structure Torn (c : Catalog) (e : EnergySaving) (needs : EnergyNeeds) (n : String) : Prop where
  up : ∃ o r, c.resource? o = some r ∧ r.node = some n ∧ r.state = .alive
  idle : ∀ o r, c.resource? o = some r → r.node = some n → r.state = .alive →
    e.mayRest needs.now r = true ∧ o ∉ needs.busy
  wanted : ∃ o r, c.resource? o = some r ∧ r.node = some n ∧ r.state = .absent ∧ o ∈ needs.wanted

theorem torn_iff : c.Torn e needs n ↔ n ∈ (c.energyDecision e needs).sleepNodes ∧
    n ∈ (c.energyDecision e needs).wakeupNodes := by
  simp only [mem_sleepNodes, mem_wakeupNodes, mem_inState, nodeOf?_eq_some_iff, mem_restable]
  constructor
  · rintro ⟨⟨o, r, hr, hn, hstate⟩, hidle, p, q, hq, hqn, hqstate, hwanted⟩
    refine ⟨⟨⟨o, ⟨r, hr, hstate⟩, r, hr, hn⟩, ?_⟩, p, hwanted, ⟨q, hq, hqstate⟩, q, hq, hqn⟩
    rintro o ⟨r, hr, hstate⟩ ⟨r', hr', hn⟩
    cases hr.symm.trans hr'
    exact ⟨r, hr, hstate, hidle o r hr hn hstate⟩
  · rintro ⟨⟨⟨o, ⟨r, hr, hstate⟩, r', hr', hn⟩, hall⟩, p, hwanted, ⟨q, hq, hqstate⟩, q', hq', hqn⟩
    cases hr.symm.trans hr'
    cases hq.symm.trans hq'
    refine ⟨⟨o, r, hr, hn, hstate⟩, fun o r hr hn hstate => ?_, p, q, hq, hqn, hqstate, hwanted⟩
    obtain ⟨r', hr', _, hidle⟩ := hall o ⟨r, hr, hstate⟩ ⟨r, hr, hn⟩
    cases hr.symm.trans hr'
    exact hidle

/-- No resource gets two orders, and no node does unless it is torn. -/
theorem orders_agree (c : Catalog) (e : EnergySaving) (needs : EnergyNeeds) :
    (∀ id ∈ (c.energyDecision e needs).sleep, id ∉ (c.energyDecision e needs).wakeup) ∧
      ((∀ n ∈ (c.energyDecision e needs).sleepNodes, n ∉ (c.energyDecision e needs).wakeupNodes) ↔
        ∀ n, ¬ c.Torn e needs n) := by
  refine ⟨fun id hsleep hwakeup => ?_, ?_⟩
  · obtain ⟨o, r, hr, rfl, halive⟩ := exists_of_mem_sleep hsleep
    obtain ⟨r', hr', habsent⟩ := mem_inState.1 (absent_of_wakes ((id_mem_toIds hr).1 hwakeup))
    cases hr.symm.trans hr'
    rw [halive] at habsent
    cases habsent
  · simp only [torn_iff, not_and]

/-- One node with a resource that is up and one that is absent. -/
def halfAsleep : Catalog where
  snapshot := 1
  resources :=
    [⟨1, .alive, none, none, [("network_address", "a")]⟩,
      ⟨2, .absent, none, none, [("network_address", "a")]⟩]
  distinct := by decide

/-- The node is put to sleep and woken in one decision. -/
theorem not_orders_agree_halfAsleep :
    ¬ ∀ (c : Catalog) (e : EnergySaving) (needs : EnergyNeeds),
      ∀ n ∈ (c.energyDecision e needs).sleepNodes, n ∉ (c.energyDecision e needs).wakeupNodes := by
  intro h
  refine h halfAsleep ⟨600, 60, 30⟩ ⟨100, 30, ∅, .single 1⟩ "a" ?_ ?_ <;> decide +kernel

end Catalog

end ClusterPlan
