import ClusterPlan.Proofs.Matching.Leading

/-!
The choice as a search. A search goes through the groups of a level one after the other, collects what
they give and stops as soon as enough of them have given something. Where every group at the bottom is
one resource the choice cuts off the least available members instead; the search finds the same ones,
and misses as they do where too few are available.
-/

namespace ClusterPlan

/-- Goes through groups until `n` of them have given something. `chosen` is what `found` groups have
given so far. -/
def gather? (n : Nat) (pick : OrdinalSet → Option OrdinalSet) :
    List OrdinalSet → OrdinalSet → Nat → Option OrdinalSet
  | [], _, _ => none
  | g :: rest, chosen, found =>
      let step := match pick g with
        | some given => (chosen ∪ given, found + 1)
        | none => (chosen, found)
      if step.2 = n then some step.1 else gather? n pick rest step.1 step.2

/-- What a search takes of a group at the bottom: all of it, if all of it is available. -/
def takeWhole? (available g : OrdinalSet) : Option OrdinalSet :=
  if g.subset available then some g else none

/-- Searches for a hierarchy of levels, always group by group. -/
def searchLevels? : List GroupedLevel → OrdinalSet → Option OrdinalSet
  | [], _ => none
  | level :: lower, available =>
      if level.count = 0 then some ∅
      else if lower.isEmpty then gather? level.count (takeWhole? available) level.groups ∅ 0
      else
        gather? level.count
          (fun g =>
            let usable := g ∩ available
            if usable.isEmpty then none else searchLevels? lower usable)
          level.groups ∅ 0

section Gathering

variable {n found : Nat} {pick : OrdinalSet → Option OrdinalSet} {chosen s : OrdinalSet}

theorem gather?_cons_none {g : OrdinalSet} (h : pick g = none) (rest : List OrdinalSet) :
    gather? n pick (g :: rest) chosen found =
      if found = n then some chosen else gather? n pick rest chosen found := by
  simp only [gather?, h]

theorem gather?_cons_some {g : OrdinalSet} (h : pick g = some s) (rest : List OrdinalSet) :
    gather? n pick (g :: rest) chosen found =
      if found + 1 = n then some (chosen ∪ s) else gather? n pick rest (chosen ∪ s) (found + 1) := by
  simp only [gather?, h]

theorem unionOfFirst?_succ_cons (n : Nat) (s : OrdinalSet) (sets : List OrdinalSet) :
    unionOfFirst? (n + 1) (s :: sets) = (unionOfFirst? n sets).map (s ∪ ·) := by
  have hunion : OrdinalSet.unionAll (s :: sets.take n) = s ∪ OrdinalSet.unionAll (sets.take n) :=
    OrdinalSet.ext_mem fun o => by simp
  simp only [unionOfFirst?, List.length_cons, Nat.add_lt_add_iff_right, List.take_succ_cons, hunion]
  split <;> rfl

theorem union_assoc (a b c : OrdinalSet) : a ∪ b ∪ c = a ∪ (b ∪ c) :=
  OrdinalSet.ext_mem fun o => by simp [or_assoc]

/-- With `found` groups behind it, a search adds the first of those still needed. -/
theorem gather?_eq (hfound : found < n) (groups : List OrdinalSet) : gather? n pick groups chosen found =
    (unionOfFirst? (n - found) (groups.filterMap pick)).map (chosen ∪ ·) := by
  induction groups generalizing chosen found with
  | nil =>
      have hnone : unionOfFirst? (n - found) [] = none := if_pos (Nat.sub_pos_of_lt hfound)
      rw [gather?, List.filterMap_nil, hnone, Option.map_none]
  | cons g rest ih =>
      cases hg : pick g with
      | none =>
          rw [gather?_cons_none hg, if_neg (Nat.ne_of_lt hfound), ih hfound,
            List.filterMap_cons_none hg]
      | some given =>
          obtain ⟨more, hmore⟩ : ∃ more, n - found = more + 1 := ⟨n - found - 1, by omega⟩
          rw [gather?_cons_some hg, List.filterMap_cons_some hg, hmore, unionOfFirst?_succ_cons]
          by_cases hlast : found + 1 = n
          · have hnone : more = 0 := by omega
            have hempty : unionOfFirst? 0 (rest.filterMap pick) = some ∅ := rfl
            rw [if_pos hlast, hnone, hempty, Option.map_some, Option.map_some, Option.some.injEq]
            exact OrdinalSet.ext_mem fun o => by simp
          · have hrest : n - (found + 1) = more := by omega
            rw [if_neg hlast, ih (by omega), hrest, Option.map_map]
            simp only [union_assoc]
            rfl

theorem gather?_start (hn : n ≠ 0) (groups : List OrdinalSet) :
    gather? n pick groups ∅ 0 = unionOfFirst? n (groups.filterMap pick) := by
  have hempty : ∀ s : OrdinalSet, ∅ ∪ s = s := fun s => OrdinalSet.ext_mem fun o => by simp
  rw [gather?_eq (Nat.pos_of_ne_zero hn), Nat.sub_zero]
  simp only [hempty, Option.map_id']

end Gathering

variable {levels : List GroupedLevel} {level : GroupedLevel}

theorem pickWhole?_eq_gather? (hcount : level.count ≠ 0) (available : OrdinalSet) :
    level.pickWhole? available = gather? level.count (takeWhole? available) level.groups ∅ 0 := by
  rw [gather?_start hcount, GroupedLevel.pickWhole?, ← List.filterMap_eq_filter]
  rfl

/-- The choice for a hierarchy is what a search finds. -/
theorem pickLevels?_eq_searchLevels? (hsingles : ∀ l ∈ levels, l.Singles) (available : OrdinalSet) :
    pickLevels? levels available = searchLevels? levels available := by
  induction levels generalizing available with
  | nil => rfl
  | cons level lower ih =>
      obtain ⟨hlevel, hlower⟩ := List.forall_mem_cons.1 hsingles
      rw [pickLevels?, searchLevels?]
      by_cases hcount : level.count = 0
      · rw [if_pos hcount, if_pos hcount]
      · rw [if_neg hcount, if_neg hcount]
        split
        · rw [pickBottom?_eq_pickWhole? hlevel, pickWhole?_eq_gather? hcount]
        · rw [gather?_start hcount]
          simp only [ih hlower]

/-- Where the bottom groups are the members one by one, cutting off the least available members gives
what going through the groups would give. -/
theorem smallest?_eq_gather? (hcount : 1 ≤ level.count) (hid : level.property = Resource.idProperty)
    (hgroups : level.groups = level.members.toList.map OrdinalSet.single) (available : OrdinalSet) :
    pickLevels? [level] available = (available ∩ level.members).smallest? level.count ∧
      (available ∩ level.members).smallest? level.count =
        gather? level.count (takeWhole? available) level.groups ∅ 0 := by
  have hcut : level.pickBottom? available = (available ∩ level.members).smallest? level.count :=
    if_pos hid
  refine ⟨?_, ?_⟩
  · rw [pickLevels?, if_neg (by omega), List.isEmpty_nil, if_pos rfl, hcut]
  · rw [← hcut, pickBottom?_eq_pickWhole? fun _ => hgroups, pickWhole?_eq_gather? (by omega)]

/-- Two of three resources are asked for, and the least of them is gone. -/
theorem smallest?_eq_gather?_threeResources :
    let level : GroupedLevel := ⟨"resource_id", 2, [.single 1, .single 3, .single 4]⟩
    let available : OrdinalSet := .ofIds [0, 3, 4]
    1 ≤ level.count ∧ level.property = Resource.idProperty ∧
      level.groups = level.members.toList.map OrdinalSet.single ∧
      pickLevels? [level] available = some (.ofIds [3, 4]) ∧
      gather? level.count (takeWhole? available) level.groups ∅ 0 = some (.ofIds [3, 4]) := by
  intro level available
  have hcount : 1 ≤ level.count := by decide
  have hid : level.property = Resource.idProperty := rfl
  have hgroups : level.groups = level.members.toList.map OrdinalSet.single := by decide
  have hcut : (available ∩ level.members).smallest? level.count = some (.ofIds [3, 4]) := by decide
  obtain ⟨hpick, hsearch⟩ := smallest?_eq_gather? hcount hid hgroups available
  exact ⟨hcount, hid, hgroups, hpick.trans hcut, hsearch.symm.trans hcut⟩

end ClusterPlan
