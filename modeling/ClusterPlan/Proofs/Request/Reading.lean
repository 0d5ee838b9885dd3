import ClusterPlan.Proofs.Request.Consistency

/-!
The order in which the rows of a table are read when its jobs are put together: job by job, in a job
position by position, then part by part and level by level. Every row is read once, and what the levels
of the jobs ask for, one after another, is what the rows ask for in that order.
-/

namespace ClusterPlan

namespace RequestRow

/-- What the level of the row asks for. -/
def wanted (r : RequestRow) : Level := ⟨r.property, r.count⟩

end RequestRow

namespace RowTable

variable {rows : RowTable} {key : RequestRow → Int} {inner : RowTable → RowTable}
  {g : RequestRow → RequestRow}

theorem mem_gather {e : Int × RowTable} :
    e ∈ gather key rows ↔ e.2 = (rows.filter fun r => key r = e.1) ∧ e.2 ≠ [] := by
  simp only [gather, List.mem_map, mem_ascending]
  constructor
  · rintro ⟨k, ⟨r, hr, rfl⟩, rfl⟩
    exact ⟨rfl, List.ne_nil_of_mem (List.mem_filter.2 ⟨hr, decide_eq_true rfl⟩)⟩
  · rintro ⟨hown, hne⟩
    obtain ⟨r, hr⟩ := List.exists_mem_of_ne_nil _ hne
    rw [hown, List.mem_filter] at hr
    exact ⟨e.1, ⟨r, hr.1, of_decide_eq_true hr.2⟩, Prod.ext rfl hown.symm⟩

theorem gather_map (hkey : ∀ r, key (g r) = key r) :
    gather key (rows.map g) = (gather key rows).map fun e => (e.1, e.2.map g) := by
  have hkeys : (rows.map g).map key = rows.map key := by
    rw [List.map_map]
    exact List.map_congr_left fun r _ => hkey r
  rw [gather, gather, hkeys, List.map_map]
  refine List.map_congr_left fun k _ => ?_
  rw [List.filter_map, Function.comp_apply]
  simp only [Function.comp_def, hkey]

section ReadBy

/-- The rows by ascending key, those of each key in an order of their own. -/
def readBy (key : RequestRow → Int) (inner : RowTable → RowTable) (rows : RowTable) : RowTable :=
  (gather key rows).flatMap (inner ·.2)

/-- Rows sorted into distinct keys are the rows there were. -/
theorem flatMap_filter_perm {keys : List Int} (hkeys : keys.Nodup) (h : ∀ r ∈ rows, key r ∈ keys) :
    (keys.flatMap fun k => rows.filter fun r => key r = k).Perm rows := by
  induction keys generalizing rows with
  | nil => rw [List.eq_nil_iff_forall_not_mem.2 fun r hr => List.not_mem_nil (h r hr)]; rfl
  | cons k rest ih =>
      obtain ⟨hk, hrest⟩ := List.nodup_cons.1 hkeys
      have hothers : (rest.flatMap fun i => rows.filter fun r => key r = i) =
          rest.flatMap fun i => (rows.filter fun r => !decide (key r = k)).filter fun r =>
            key r = i := by
        refine List.flatMap_congr fun i hi => ?_
        rw [List.filter_filter]
        refine List.filter_congr fun r _ => ?_
        by_cases hr : key r = i
        · have hne : key r ≠ k := fun heq => hk (heq ▸ hr ▸ hi)
          simp [hr ▸ hne, hr]
        · simp [hr]
      rw [List.flatMap_cons, hothers]
      refine ((ih hrest fun r hr => ?_).append_left _).trans (List.filter_append_perm _ rows)
      rw [List.mem_filter, Bool.not_eq_true', decide_eq_false_iff_not] at hr
      exact (List.mem_cons.1 (h r hr.1)).resolve_left hr.2

theorem readBy_perm (hinner : ∀ own, (inner own).Perm own) (rows : RowTable) :
    (readBy key inner rows).Perm rows := by
  have hkeys : (ascending (rows.map key)).Nodup :=
    (Table.ascending_ofList (rows.map key)).imp fun hlt => hlt.ne
  rw [readBy, gather, List.flatMap_map]
  refine (List.Perm.flatMap_left _ fun k _ => hinner _).trans ?_
  exact flatMap_filter_perm hkeys fun r hr => mem_ascending.2 (List.mem_map_of_mem hr)

theorem readBy_map (hkey : ∀ r, key (g r) = key r)
    (hinner : ∀ own : RowTable, inner (own.map g) = (inner own).map g) :
    readBy key inner (rows.map g) = (readBy key inner rows).map g := by
  rw [readBy, gather_map hkey, List.flatMap_map, readBy, List.map_flatMap]
  exact List.flatMap_congr fun e _ => hinner e.2

end ReadBy

section InOrder

def partInOrder : RowTable → RowTable := readBy (·.level) id

def alternativeInOrder : RowTable → RowTable := readBy (·.part) partInOrder

def jobInOrder : RowTable → RowTable := readBy (·.position) alternativeInOrder

def inOrder : RowTable → RowTable := readBy (·.job) jobInOrder

theorem inOrder_perm (rows : RowTable) : (inOrder rows).Perm rows :=
  readBy_perm (readBy_perm (readBy_perm (readBy_perm fun own => List.Perm.refl own))) rows

/-- Rows that are changed where they stand are read in the same order. -/
theorem inOrder_map (hg : ∀ r, (g r).sameLevel r = true) (rows : RowTable) :
    inOrder (rows.map g) = (inOrder rows).map g := by
  have hplace := fun r => RequestRow.sameLevel_iff.1 (hg r)
  refine readBy_map (fun r => (hplace r).1.1.1) fun _ => ?_
  refine readBy_map (fun r => congrArg _ (hplace r).1.1.2) fun _ => ?_
  refine readBy_map (fun r => congrArg _ (hplace r).1.2) fun _ => ?_
  exact readBy_map (fun r => congrArg _ (hplace r).2) fun own => rfl

end InOrder

section Levels

/-- What the levels of the jobs ask for, one after another. -/
def levelsOf (jobs : List (Int × List Alternative)) : List Level :=
  jobs.flatMap fun e => e.2.flatMap fun a => a.parts.flatMap (·.levels)

theorem levels_toPart (rows : RowTable) :
    (toPart rows).levels = (partInOrder rows).map RequestRow.wanted := by
  rw [partInOrder, readBy, List.map_flatMap]
  rfl

theorem levels_toAlternative (rows : RowTable) :
    ((toAlternative rows).toList.flatMap fun a => a.parts.flatMap (·.levels)) =
      (alternativeInOrder rows).map RequestRow.wanted := by
  cases rows with
  | nil => rfl
  | cons row rest =>
      rw [alternativeInOrder, readBy, List.map_flatMap]
      simp only [toAlternative, List.head?_cons, Option.map_some, Option.toList_some,
        List.flatMap_singleton, List.flatMap_map, levels_toPart]

theorem assemble_eq (rows : RowTable) :
    assemble rows = (gather (·.job) rows).map fun e => (e.1, alternatives e.2) := rfl

theorem alternatives_eq (rows : RowTable) :
    alternatives rows = (gather (·.position) rows).flatMap fun e => (toAlternative e.2).toList :=
  List.filterMap_eq_flatMap_toList _ _

theorem levelsOf_assemble (rows : RowTable) :
    levelsOf (assemble rows) = (inOrder rows).map RequestRow.wanted := by
  rw [inOrder, readBy, List.map_flatMap, levelsOf, assemble_eq, List.flatMap_map]
  refine List.flatMap_congr fun e _ => ?_
  rw [jobInOrder, readBy, List.map_flatMap, alternatives_eq, List.flatMap_assoc]
  exact List.flatMap_congr fun e _ => levels_toAlternative e.2

end Levels

end RowTable

end ClusterPlan
