import ClusterPlan.Proofs.Catalog.Ids
import ClusterPlan.Proofs.Pass.Fates
import ClusterPlan.Proofs.Pass.Placed
import ClusterPlan.Proofs.Store.Orderly

/-!
What storing a report makes of a store that accepts writes: the changed jobs are altered as the report
says, rows that no longer stand are gone, and new rows take the place of those of the same jobs.
-/

namespace ClusterPlan

namespace Store

/-- The store with all its jobs changed. -/
def mapJobs (s : Store) (change : Job → Job) : Store := { s with jobs := s.jobs.map change }

theorem mapJobs_mapJobs (s : Store) (change change' : Job → Job) :
    (s.mapJobs change).mapJobs change' = s.mapJobs (change' ∘ change) := by
  simp only [mapJobs, List.map_map]

theorem write_of_accepted {s : Store} {kind : StoreWrite} {change : Store → Except Error Store}
    (h : s.rejectsWrites = false) : s.write kind change = change s :=
  if_neg (by rw [h]; nofun)

/-- A store after a report was written to it. -/
structure Reported (s s' : Store) (r : Report) : Prop where
  catalog : s'.catalog = s.catalog
  requestRows : s'.requestRows = s.requestRows
  jobs : s'.jobs = s.jobs.map r.altered
  gantt : s'.gantt = r.newRows.foldl (fun acc row => Table.put GanttRow.job row acc)
    (s.gantt.filter fun row => !r.dropped.contains row.job)

namespace Reported

variable {s s' : Store} {r : Report} {row : GanttRow} {id : Int}

theorem ascending_gantt (h : s.Reported s' r) (hs : s.Orderly) :
    Table.Ascending GanttRow.job s'.gantt := by
  rw [h.gantt]
  exact Table.ascending_foldl_put (List.Pairwise.filter _ hs.gantt) _

theorem mem_gantt (h : s.Reported s' r) (hs : s.Orderly)
    (hnew : r.newRows.Pairwise fun a b => a.job ≠ b.job) : row ∈ s'.gantt ↔ r.Leaves s.gantt row := by
  have hkept : Table.Ascending GanttRow.job (s.gantt.filter fun row =>
      !r.dropped.contains row.job) := List.Pairwise.filter _ hs.gantt
  rw [h.gantt, Table.mem_foldl_put_iff hkept hnew, List.mem_filter, and_assoc, Bool.not_eq_true',
    List.contains_eq_mem, decide_eq_false_iff_not]
  rfl

theorem storedJob? (h : s.Reported s' r) : s'.storedJob? id = (s.storedJob? id).map r.altered := by
  rw [Store.storedJob?, h.jobs, Table.find?_map r.id_altered]
  rfl

theorem storedJob?_of_others (h : s.Reported s' r) (hothers : ∀ d ∈ r.changes, d.job ≠ id) :
    s'.storedJob? id = s.storedJob? id := by
  rw [h.storedJob?]
  cases hstored : s.storedJob? id with
  | none => rfl
  | some j =>
      have hid : j.id = id := by simpa using List.find?_some hstored
      rw [Option.map_some, Report.altered_of_not_alters]
      rw [Report.alters, List.any_eq_false, hid]
      simpa using hothers

end Reported

end Store

namespace WriteLog

variable {w : WriteLog} {d : Decision} {id : Int} {note : Error → Notice}

section Decisions

/-- A change is accepted, or there is no such job to change. -/
theorem attempt_changeJob {kind : StoreWrite} {change : Job → Job}
    (hwrites : w.1.rejectsWrites = false) :
    (w.attempt (fun s => s.write kind fun s => s.changeJob id change) note).1 =
      w.1.mapJobs fun j => if j.id = id then change j else j := by
  simp only [attempt, Store.write_of_accepted hwrites, Store.changeJob]
  cases hstored : w.1.storedJob? id with
  | some j => rfl
  | none =>
      have hsame : w.1.jobs.map (fun j => if j.id = id then change j else j) = w.1.jobs := by
        refine (List.map_congr_left fun j hj => ?_).trans (List.map_id _)
        have hother := List.find?_eq_none.1 hstored j hj
        rw [decide_eq_true_eq] at hother
        rw [if_neg hother]
        rfl
      rw [Store.mapJobs, hsame]
      rfl

theorem store_storeDecision (hwrites : w.1.rejectsWrites = false) :
    (w.storeDecision d).1 = w.1.mapJobs fun j => if j.id = d.job then d.appliedTo j else j := by
  simp only [storeDecision, Store.updateJobState, Store.updateReservation]
  by_cases hflag : d.reservation == .none
  · rw [if_pos hflag, attempt_changeJob hwrites]
    simp only [Decision.appliedTo, if_pos hflag]
  · rw [if_neg hflag, attempt_changeJob (by rw [attempt_changeJob hwrites]; exact hwrites),
      attempt_changeJob hwrites, Store.mapJobs_mapJobs]
    simp only [Decision.appliedTo, if_neg hflag]
    congr 1
    funext j
    rw [Function.comp_apply]
    by_cases hj : j.id = d.job <;> simp [hj]

/-- As long as no job is decided about twice, each is altered by the decision about it. -/
theorem store_storeDecisions (ds : List Decision) (hwrites : w.1.rejectsWrites = false)
    (hids : (ds.map Decision.job).Nodup) :
    (ds.foldl storeDecision w).1 = w.1.mapJobs fun j =>
      match ds.find? fun d => d.job == j.id with
      | some d => d.appliedTo j
      | none => j := by
  induction ds generalizing w with
  | nil => simp [Store.mapJobs]
  | cons d rest ih =>
      obtain ⟨hd, hrest⟩ := List.nodup_cons.1 hids
      have hstore := store_storeDecision (d := d) hwrites
      rw [List.foldl_cons, ih (by rw [hstore]; exact hwrites) hrest, hstore, Store.mapJobs_mapJobs]
      congr 1
      funext j
      rw [Function.comp_apply]
      by_cases hj : j.id = d.job
      · have hnone : rest.find? (fun e => e.job == j.id) = none := by
          rw [List.find?_eq_none]
          intro e he hid
          refine hd (List.mem_map.2 ⟨e, he, ?_⟩)
          rw [← hj]
          simpa using hid
        have hid : (d.appliedTo j).id = j.id := rfl
        rw [if_pos hj, hid, hnone, List.find?_cons_of_pos (by simp [hj])]
      · rw [if_neg hj, List.find?_cons_of_neg (by simpa using Ne.symm hj)]

end Decisions

section Tables

/-- The log when the drops of a report are written. -/
def afterDrops (w : WriteLog) (r : Report) : WriteLog :=
  if r.dropped.isEmpty then w
  else w.attempt (fun s => s.dropRows r.dropped) (.dropFailed r.dropped.length r.now)

def afterRows (w : WriteLog) (r : Report) : WriteLog :=
  if r.newRows.isEmpty then w
  else w.attempt (fun s => s.commitRows r.newRows) (.commitFailed r.newRows.length r.now)

def afterKills (w : WriteLog) (r : Report) : WriteLog :=
  if r.kills.isEmpty then w else w.attempt (fun s => s.requestKills r.kills) (.killFailed r.kills)

theorem storeReport_eq (w : WriteLog) (r : Report) :
    w.storeReport r =
      r.changes.foldl storeDecision (((w.afterDrops r).afterRows r).afterKills r) :=
  rfl

variable (r : Report) (hwrites : w.1.rejectsWrites = false)
include hwrites

theorem attempt_write {kind : StoreWrite} {change : Store → Except Error Store} {s : Store}
    (hchange : change w.1 = .ok s) : (w.attempt (fun s => s.write kind change) note).1 = s := by
  simp only [attempt, Store.write_of_accepted hwrites, hchange]

theorem store_afterDrops : (w.afterDrops r).1 =
    { w.1 with gantt := w.1.gantt.filter fun row => !r.dropped.contains row.job } := by
  rw [afterDrops]
  cases hdropped : r.dropped with
  | nil => simp
  | cons _ _ => exact attempt_write hwrites rfl

theorem store_afterRows : (w.afterRows r).1 =
    { w.1 with
      gantt := r.newRows.foldl (fun acc row => Table.put GanttRow.job row acc) w.1.gantt } := by
  rw [afterRows]
  cases hnew : r.newRows with
  | nil => rfl
  | cons _ _ => exact attempt_write hwrites rfl

/-- The kill requests with new ones. Without new ones they are left as they are. -/
def killsWith (r : Report) (old : List Int) : List Int :=
  if r.kills.isEmpty then old else ascending (old ++ r.kills)

omit hwrites in
theorem mem_killsWith (old : List Int) (id : Int) :
    id ∈ killsWith r old ↔ id ∈ old ∨ id ∈ r.kills := by
  rw [killsWith]
  cases hkills : r.kills with
  | nil => simp
  | cons _ _ => rw [List.isEmpty_cons, if_neg nofun, mem_ascending, List.mem_append]

theorem store_afterKills : (w.afterKills r).1 =
    { w.1 with killRequests := killsWith r w.1.killRequests } := by
  rw [afterKills, killsWith]
  split
  · rfl
  · exact attempt_write hwrites rfl

/-- The whole store that a report leaves. -/
theorem store_storeReport (hids : (r.changes.map Decision.job).Nodup) : (w.storeReport r).1 =
    { w.1 with
      jobs := w.1.jobs.map r.altered
      gantt := r.newRows.foldl (fun acc row => Table.put GanttRow.job row acc)
        (w.1.gantt.filter fun row => !r.dropped.contains row.job)
      killRequests := killsWith r w.1.killRequests } := by
  have hdrops := store_afterDrops r hwrites
  have hrows := store_afterRows (w := w.afterDrops r) r (by rw [hdrops]; exact hwrites)
  have hkills := store_afterKills (w := (w.afterDrops r).afterRows r) r
    (by rw [hrows, hdrops]; exact hwrites)
  rw [storeReport_eq, store_storeDecisions _ (by rw [hkills, hrows, hdrops]; exact hwrites) hids,
    hkills, hrows, hdrops]
  rfl

theorem reported_storeReport (hids : (r.changes.map Decision.job).Nodup) :
    Store.Reported w.1 (w.storeReport r).1 r := by
  rw [store_storeReport r hwrites hids]
  exact ⟨rfl, rfl, rfl, rfl⟩

end Tables

end WriteLog

end ClusterPlan
