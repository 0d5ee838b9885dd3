import ClusterPlan.Controller
import ClusterPlan.Proofs.Table

/-!
The tables of a store. Jobs and rows stay in ascending order whatever is done, and an operation on one
job leaves what is known about another one as it is. What every single write preserves is preserved
when a report is stored, whichever of its writes fail.
-/

namespace ClusterPlan

namespace Store

variable {s s' s'' : Store} {id other : Int} {job : Job}

/-- The tables of jobs and rows are in ascending order, with one entry for each job. -/
structure Orderly (s : Store) : Prop where
  jobs : Table.Ascending Job.id s.jobs
  gantt : Table.Ascending GanttRow.job s.gantt

/-- What is known about a job is what was known about it before. -/
structure Keeps (id : Int) (s s' : Store) : Prop where
  job : s'.storedJob? id = s.storedJob? id
  row : s'.ganttRow? id = s.ganttRow? id

theorem Keeps.refl (s : Store) : Keeps id s s := ⟨rfl, rfl⟩

theorem Keeps.trans (h : Keeps id s s') (h' : Keeps id s' s'') : Keeps id s s'' where
  job := h'.job.trans h.job
  row := h'.row.trans h.row

section OtherTables

theorem orderly_of_eq (h : s.Orderly) (hjobs : s'.jobs = s.jobs) (hgantt : s'.gantt = s.gantt) :
    s'.Orderly where
  jobs := hjobs ▸ h.jobs
  gantt := hgantt ▸ h.gantt

theorem keeps_of_eq (hjobs : s'.jobs = s.jobs) (hgantt : s'.gantt = s.gantt) : Keeps id s s' where
  job := by rw [storedJob?, storedJob?, hjobs]
  row := by rw [ganttRow?, ganttRow?, hgantt]

theorem orderly_ofResources (resources : List Resource) (order : List String) :
    (ofResources resources order).Orderly :=
  ⟨List.Pairwise.nil, List.Pairwise.nil⟩

theorem tables_of_updateResource {change : Resource → Resource}
    (hs : s.updateResource other change = .ok s') : s'.jobs = s.jobs ∧ s'.gantt = s.gantt := by
  simp only [updateResource] at hs
  split at hs
  · cases hs
    exact ⟨rfl, rfl⟩
  · cases hs

/-- A store that was asked for its catalog differs in nothing but what it knows of catalogs. -/
theorem fetchCatalog_eq_ok {c : Catalog} (hs : s.fetchCatalog = .ok (s', c)) :
    ∃ next, s' = { s with catalog := some c, nextSnapshot := next } := by
  simp only [fetchCatalog] at hs
  split at hs
  · rename_i hcatalog
    cases hs
    exact ⟨s.nextSnapshot, by rw [← hcatalog]⟩
  · cases hbuild : Catalog.build s.nextSnapshot s.resourceOrder s.resources with
    | error e =>
        rw [hbuild] at hs
        cases hs
    | ok c =>
        rw [hbuild] at hs
        cases hs
        exact ⟨s.nextSnapshot + 1, rfl⟩

theorem tables_of_fetchCatalog {c : Catalog} (hs : s.fetchCatalog = .ok (s', c)) :
    s'.jobs = s.jobs ∧ s'.gantt = s.gantt := by
  obtain ⟨_, rfl⟩ := fetchCatalog_eq_ok hs
  exact ⟨rfl, rfl⟩

end OtherTables

section Jobs

theorem submit_eq_ok (hs : s.submit job = .ok s') :
    s.storedJob? job.id = none ∧
      s' = { s with
        jobs := Table.put Job.id { job with alternatives := [] } s.jobs
        requestRows := s.requestRows ++ RowTable.ofAlternatives job.id job.alternatives } := by
  simp only [submit] at hs
  split at hs
  · cases hs
  · rename_i hnew
    cases hs
    exact ⟨Option.not_isSome_iff_eq_none.1 hnew, rfl⟩

theorem orderly_submit (h : s.Orderly) (hs : s.submit job = .ok s') : s'.Orderly := by
  obtain ⟨_, rfl⟩ := submit_eq_ok hs
  exact ⟨Table.ascending_put h.jobs _, h.gantt⟩

/-- A submission never takes the place of a stored job. -/
theorem keeps_submit (h : s.Orderly) (hid : s.storedJob? id ≠ none) (hs : s.submit job = .ok s') :
    Keeps id s s' := by
  obtain ⟨hnew, rfl⟩ := submit_eq_ok hs
  have hne : job.id ≠ id := by
    intro heq
    exact hid (heq ▸ hnew)
  refine ⟨?_, rfl⟩
  rw [storedJob?, Table.find?_put h.jobs, if_neg hne]
  rfl

theorem orderly_withdraw (h : s.Orderly) : (s.withdraw other).1.Orderly :=
  ⟨List.Pairwise.filter _ h.jobs, List.Pairwise.filter _ h.gantt⟩

theorem keeps_withdraw (hne : other ≠ id) : Keeps id s (s.withdraw other).1 := by
  constructor
  · apply Table.find?_filter
    intro j _ hj
    rw [hj]
    exact decide_eq_true hne.symm
  · apply Table.find?_filter
    intro r _ hr
    rw [hr]
    exact decide_eq_true hne.symm

variable {change : Job → Job}

theorem changeJob_eq_ok (hs : s.changeJob other change = .ok s') :
    s' = { s with jobs := s.jobs.map fun j => if j.id = other then change j else j } := by
  simp only [changeJob] at hs
  split at hs
  · cases hs
    rfl
  · cases hs

theorem id_ite_change (hchange : ∀ j, (change j).id = j.id) (j : Job) :
    (if j.id = other then change j else j).id = j.id := by
  split
  · exact hchange j
  · rfl

theorem orderly_changeJob (h : s.Orderly) (hchange : ∀ j, (change j).id = j.id)
    (hs : s.changeJob other change = .ok s') : s'.Orderly := by
  cases changeJob_eq_ok hs
  exact ⟨Table.ascending_map (id_ite_change hchange) h.jobs, h.gantt⟩

theorem keeps_changeJob (hne : other ≠ id) (hchange : ∀ j, (change j).id = j.id)
    (hs : s.changeJob other change = .ok s') : Keeps id s s' := by
  cases changeJob_eq_ok hs
  refine ⟨?_, rfl⟩
  simp only [storedJob?, Table.find?_map (id_ite_change hchange)]
  cases hfind : Table.find? Job.id s.jobs id with
  | none => rfl
  | some j =>
      have hj : j.id = id := by simpa using List.find?_some hfind
      rw [Option.map_some, if_neg (hj ▸ hne.symm)]

end Jobs

section Writes

theorem eq_of_write {kind : StoreWrite} {change : Store → Except Error Store}
    (hs : s.write kind change = .ok s') : change s = .ok s' := by
  simp only [write] at hs
  split at hs
  · cases hs
  · exact hs

theorem orderly_commitRows {rows : List GanttRow} (h : s.Orderly)
    (hs : s.commitRows rows = .ok s') : s'.Orderly := by
  cases eq_of_write hs
  exact ⟨h.jobs, Table.ascending_foldl_put h.gantt rows⟩

theorem keeps_commitRows {rows : List GanttRow} (h : s.Orderly) (hrows : ∀ r ∈ rows, r.job ≠ id)
    (hs : s.commitRows rows = .ok s') : Keeps id s s' := by
  cases eq_of_write hs
  exact ⟨rfl, Table.find?_foldl_put h.gantt rows id hrows⟩

theorem orderly_dropRows {jobs : List Int} (h : s.Orderly) (hs : s.dropRows jobs = .ok s') :
    s'.Orderly := by
  cases eq_of_write hs
  exact ⟨h.jobs, List.Pairwise.filter _ h.gantt⟩

theorem keeps_dropRows {jobs : List Int} (hid : id ∉ jobs) (hs : s.dropRows jobs = .ok s') :
    Keeps id s s' := by
  cases eq_of_write hs
  refine ⟨rfl, ?_⟩
  apply Table.find?_filter
  intro r _ hr
  rw [hr]
  simpa using hid

theorem tables_of_requestKills {jobs : List Int} (hs : s.requestKills jobs = .ok s') :
    s'.jobs = s.jobs ∧ s'.gantt = s.gantt := by
  cases eq_of_write hs
  exact ⟨rfl, rfl⟩

theorem orderly_updateJobState {state : JobState} {message : String} (h : s.Orderly)
    (hs : s.updateJobState other state message = .ok s') : s'.Orderly := by
  refine orderly_changeJob h ?_ (eq_of_write hs)
  exact fun _ => rfl

theorem keeps_updateJobState {state : JobState} {message : String} (hne : other ≠ id)
    (hs : s.updateJobState other state message = .ok s') : Keeps id s s' := by
  refine keeps_changeJob hne ?_ (eq_of_write hs)
  exact fun _ => rfl

theorem orderly_updateReservation {flag : Reservation} (h : s.Orderly)
    (hs : s.updateReservation other flag = .ok s') : s'.Orderly := by
  refine orderly_changeJob h ?_ (eq_of_write hs)
  exact fun _ => rfl

theorem keeps_updateReservation {flag : Reservation} (hne : other ≠ id)
    (hs : s.updateReservation other flag = .ok s') : Keeps id s s' := by
  refine keeps_changeJob hne ?_ (eq_of_write hs)
  exact fun _ => rfl

end Writes

end Store

namespace WriteLog

section Preserves

variable {P : Store → Prop} {w : WriteLog} {write : Store → Except Error Store} {note : Error → Notice}

theorem attempt_preserves (hwrite : ∀ s s', P s → write s = .ok s' → P s') (h : P w.1) :
    P (w.attempt write note).1 := by
  simp only [attempt]
  split
  · exact hwrite _ _ h (by assumption)
  · exact h

theorem unless_preserves {p : Prop} [Decidable p] (hwrite : ∀ s s', P s → write s = .ok s' → P s')
    (h : P w.1) : P (if p then w else w.attempt write note).1 := by
  split
  · exact h
  · exact attempt_preserves hwrite h

/-- Each of the writes by which a report is stored preserves `P`. -/
structure Preserves (P : Store → Prop) (r : Report) : Prop where
  dropRows : ∀ s s', P s → s.dropRows r.dropped = .ok s' → P s'
  commitRows : ∀ s s', P s → s.commitRows r.newRows = .ok s' → P s'
  requestKills : ∀ s s', P s → s.requestKills r.kills = .ok s' → P s'
  updateJobState : ∀ d ∈ r.changes, ∀ s s', P s →
    s.updateJobState d.job d.state d.note.text = .ok s' → P s'
  updateReservation : ∀ d ∈ r.changes, ∀ s s', P s →
    s.updateReservation d.job d.reservation = .ok s' → P s'

theorem Preserves.storeDecisions {r : Report} (h : Preserves P r) {ds : List Decision}
    (hds : ∀ d ∈ ds, d ∈ r.changes) (hw : P w.1) : P (ds.foldl storeDecision w).1 := by
  induction ds generalizing w with
  | nil => exact hw
  | cons d rest ih =>
      obtain ⟨hd, hrest⟩ := List.forall_mem_cons.1 hds
      apply ih hrest
      apply unless_preserves (h.updateReservation d hd)
      exact attempt_preserves (h.updateJobState d hd) hw

theorem Preserves.storeReport {r : Report} (h : Preserves P r) (hw : P w.1) :
    P (w.storeReport r).1 := by
  apply h.storeDecisions fun d hd => hd
  apply unless_preserves h.requestKills
  apply unless_preserves h.commitRows
  apply unless_preserves h.dropRows
  exact hw

end Preserves

variable {w : WriteLog} {id : Int} {r : Report}

theorem orderly_storeReport (h : w.1.Orderly) : (w.storeReport r).1.Orderly := by
  apply Preserves.storeReport _ h
  exact
    { dropRows := fun _ _ => Store.orderly_dropRows
      commitRows := fun _ _ => Store.orderly_commitRows
      requestKills := fun _ _ hs hkill =>
        Store.orderly_of_eq hs (Store.tables_of_requestKills hkill).1
          (Store.tables_of_requestKills hkill).2
      updateJobState := fun _ _ _ _ => Store.orderly_updateJobState
      updateReservation := fun _ _ _ _ => Store.orderly_updateReservation }

/-- A report that says nothing new about a job leaves what is stored about it. -/
theorem keeps_storeReport (h : w.1.Orderly) (hdropped : id ∉ r.dropped)
    (hrows : ∀ row ∈ r.newRows, row.job ≠ id) (hchanges : ∀ d ∈ r.changes, d.job ≠ id) :
    Store.Keeps id w.1 (w.storeReport r).1 := by
  -- The order of the rows is needed to see that new rows leave the others alone.
  have hpreserves : Preserves (fun s => s.Orderly ∧ Store.Keeps id w.1 s) r :=
    { dropRows := fun _ _ hs hdrop =>
        ⟨Store.orderly_dropRows hs.1 hdrop, hs.2.trans (Store.keeps_dropRows hdropped hdrop)⟩
      commitRows := fun _ _ hs hcommit =>
        ⟨Store.orderly_commitRows hs.1 hcommit,
          hs.2.trans (Store.keeps_commitRows hs.1 hrows hcommit)⟩
      requestKills := fun _ _ hs hkill =>
        have htables := Store.tables_of_requestKills hkill
        ⟨Store.orderly_of_eq hs.1 htables.1 htables.2,
          hs.2.trans (Store.keeps_of_eq htables.1 htables.2)⟩
      updateJobState := fun d hd _ _ hs hstate =>
        ⟨Store.orderly_updateJobState hs.1 hstate,
          hs.2.trans (Store.keeps_updateJobState (hchanges d hd) hstate)⟩
      updateReservation := fun d hd _ _ hs hflag =>
        ⟨Store.orderly_updateReservation hs.1 hflag,
          hs.2.trans (Store.keeps_updateReservation (hchanges d hd) hflag)⟩ }
  exact (hpreserves.storeReport ⟨h, .refl w.1⟩).2

end WriteLog

end ClusterPlan
