import ClusterPlan.Proofs.Controller.Refetching
import ClusterPlan.Proofs.Controller.Reserved

/-!
The store that a pass leaves, told from the store it was made over and from its report. Rows stand, are
given up or are made anew, decided jobs change, and nothing else does.
-/

namespace ClusterPlan

/-- The row says what the commitment does, whatever the order of its resources. -/
structure Commitment.KeptBy (catalog : Catalog) (c : Commitment) (row : GanttRow) : Prop where
  alternative : row.alternative = c.placement.assignment.alternative
  start : row.start = c.placement.assignment.start
  walltime : row.walltime = c.placement.assignment.walltime
  resources : row.resources.Perm (ascending (catalog.toIds c.placement.assignment.resources))

theorem Commitment.keptBy_of_samePlacement {catalog : Catalog} {c : Commitment} {row : GanttRow}
    (h : row.samePlacement (c.row catalog) = true) : c.KeptBy catalog row := by
  have hsame : row.sorted = (c.row catalog).sorted := by simpa [GanttRow.samePlacement] using h
  have hresources : row.resources.mergeSort (· ≤ ·) = (c.row catalog).resources.mergeSort (· ≤ ·) :=
    congrArg GanttRow.resources hsame
  refine ⟨(congrArg GanttRow.alternative hsame :), (congrArg GanttRow.start hsame :),
    (congrArg GanttRow.walltime hsame :), ?_⟩
  have hperm := List.mergeSort_perm row.resources (· ≤ ·)
  rw [hresources] at hperm
  exact hperm.symm.trans (List.mergeSort_perm (c.row catalog).resources (· ≤ ·))

namespace Store

/-- The job holds its row through a pass over the queues: it is active, or it waits with a granted
reservation that the pass does not decide to be in error. -/
def HoldsRow (s : Store) (queues : List (Name .queue)) (r : Report) (id : Int) : Prop :=
  ∃ job, s.storedJob? id = some job ∧
    (job.state.isActive = true ∨ job.state = .waiting ∧ job.reservation = .scheduled ∧
      job.queue ∈ queues ∧ ∀ d ∈ r.decisions, d.job = id → d.outcome ≠ .error)

/-- A store after a pass, told from the store before it and the report. -/
structure Applied (queues : List (Name .queue)) (catalog : Catalog) (r : Report)
    (before after : Store) : Prop where
  /-- Rows are kept or committed, and there are no others. -/
  row_iff : ∀ id, (after.ganttRow? id).isSome = true ↔
    (before.ganttRow? id).isSome = true ∧ before.HoldsRow queues r id ∨
      ∃ c ∈ r.commitments, c.job.id = id
  kept : ∀ id row, before.HoldsRow queues r id → before.ganttRow? id = some row →
    after.ganttRow? id = some row
  committed : ∀ c ∈ r.commitments, ∃ row, after.ganttRow? c.job.id = some row ∧ c.KeptBy catalog row
  decided : ∀ d ∈ r.decisions, d.changed = true → ∃ job, before.storedJob? d.job = some job ∧
    after.storedJob? d.job = some (d.appliedTo job)
  others : ∀ id, (∀ d ∈ r.decisions, d.changed = true → d.job ≠ id) →
    after.storedJob? id = before.storedJob? id
  kills : ∀ id, id ∈ after.killRequests ↔ id ∈ before.killRequests ∨ id ∈ r.kills
  requestRows : after.requestRows = before.requestRows
  resources : after.resources = before.resources
  resourceOrder : after.resourceOrder = before.resourceOrder
  orderly : after.Orderly

end Store

namespace Controller

open PassState

variable {c : Controller} {s s' s₁ : Store} {now : Int} {situation : Situation} {m : Matcher}
  {row : GanttRow} {id : Int}

section Reported

variable (h : c.Fetched s now s' situation) (hs' : s'.Orderly) (hqueues : c.config.queues.Nodup)
include h hs' hqueues

theorem holdsRow_iff (hrow : row.job = id) :
    s'.HoldsRow c.config.queues ((c.frame situation).run m).report id ↔
      ((c.frame situation).standing? row).isSome = true ∧
        ∀ d ∈ ((c.frame situation).run m).report.decisions, d.job = id → d.outcome ≠ .error := by
  rw [Frame.isSome_standing?_iff]
  constructor
  · rintro ⟨j, hstored, hholds⟩
    obtain ⟨hj, hid⟩ := (Table.find?_eq_some_iff hs'.jobs).1 hstored
    rcases hholds with hactive | ⟨hstate, hflag, hqueue, hfine⟩
    · have hmem : s'.assembled j ∈ situation.active := (mem_active_iff h).2 ⟨j, hj, hactive, rfl⟩
      refine ⟨Or.inl ⟨_, hmem, hactive, hid.trans hrow.symm⟩, fun d hd hdid => ?_⟩
      -- Active jobs have no turn.
      obtain ⟨k, hk, hdk, _⟩ := job_of_decision hd
      exact absurd (hdk.symm.trans (hdid.trans hid.symm)) ((tidy h hs' hqueues).apart k hk (s'.assembled j) hmem)
    · exact ⟨Or.inr ⟨_, (mem_waiting_iff h).2 ⟨j, hj, hstate, hqueue, rfl⟩, hflag,
        hid.trans hrow.symm⟩, hfine⟩
  · rintro ⟨hstanding, hfine⟩
    rcases hstanding with ⟨job, hjob, _, hid⟩ | ⟨job, hjob, hflag, hid⟩
    · obtain ⟨j, hj, hactive, rfl⟩ := (mem_active_iff h).1 hjob
      exact ⟨j, (Table.find?_eq_some_iff hs'.jobs).2 ⟨hj, hid.trans hrow⟩, Or.inl hactive⟩
    · obtain ⟨j, hj, hstate, hqueue, rfl⟩ := (mem_waiting_iff h).1 hjob
      exact ⟨j, (Table.find?_eq_some_iff hs'.jobs).2 ⟨hj, hid.trans hrow⟩,
        Or.inr ⟨hstate, hflag, hqueue, hfine⟩⟩

variable (hreported : s'.Reported s₁ ((c.frame situation).run m).report)
include hreported

theorem ganttRow?_iff : s₁.ganttRow? id = some row ↔
    row.job = id ∧ ((c.frame situation).run m).report.Leaves (c.frame situation).rows row := by
  rw [Store.ganttRow?, Table.find?_eq_some_iff (hreported.ascending_gantt hs'), rows_frame h hs',
    hreported.mem_gantt hs' (newRows_distinct (tidy h hs' hqueues).hasTurns m), and_comm]

theorem ganttRow?_of_held (hholds : s'.HoldsRow c.config.queues ((c.frame situation).run m).report id)
    (hrow : s'.ganttRow? id = some row) : s₁.ganttRow? id = some row := by
  obtain ⟨hmem, hid⟩ := (Table.find?_eq_some_iff hs'.gantt).1 hrow
  obtain ⟨hstanding, hfine⟩ := (holdsRow_iff h hs' hqueues hid).1 hholds
  refine (ganttRow?_iff h hs' hqueues hreported).2 ⟨hid, ?_⟩
  refine leaves_of_standing (tidy h hs' hqueues).isParted ?_ hstanding (hid ▸ hfine)
  rwa [rows_frame h hs']

theorem ganttRow?_of_committed {d : Commitment}
    (hd : d ∈ ((c.frame situation).run m).report.commitments) :
    ∃ row, s₁.ganttRow? d.job.id = some row ∧ d.KeptBy situation.catalog row := by
  obtain ⟨row, hleaves, hsame⟩ := exists_leaves_of_committed (tidy h hs' hqueues).isParted hd
  refine ⟨row, (ganttRow?_iff h hs' hqueues hreported).2 ⟨?_, hleaves⟩,
    Commitment.keptBy_of_samePlacement hsame⟩
  exact (kept_row hd hsame).1

theorem isSome_ganttRow?_iff : (s₁.ganttRow? id).isSome = true ↔
    (s'.ganttRow? id).isSome = true ∧
        s'.HoldsRow c.config.queues ((c.frame situation).run m).report id ∨
      ∃ d ∈ ((c.frame situation).run m).report.commitments, d.job.id = id := by
  constructor
  · intro hsome
    obtain ⟨row, hrow⟩ := Option.isSome_iff_exists.1 hsome
    obtain ⟨hid, hleaves⟩ := (ganttRow?_iff h hs' hqueues hreported).1 hrow
    rcases leaves_cases (tidy h hs' hqueues).isParted hleaves with
      ⟨hmem, hstanding, hfine⟩ | ⟨d, hd, hsame⟩
    · rw [rows_frame h hs'] at hmem
      refine Or.inl ⟨?_, (holdsRow_iff h hs' hqueues hid).2 ⟨hstanding, hid ▸ hfine⟩⟩
      exact Option.isSome_iff_exists.2 ⟨row, (Table.find?_eq_some_iff hs'.gantt).2 ⟨hmem, hid⟩⟩
    · exact Or.inr ⟨d, hd, (kept_row hd hsame).1.symm.trans hid⟩
  · rintro (⟨hsome, hholds⟩ | ⟨d, hd, rfl⟩)
    · obtain ⟨row, hrow⟩ := Option.isSome_iff_exists.1 hsome
      exact Option.isSome_iff_exists.2 ⟨row, ganttRow?_of_held h hs' hqueues hreported hholds hrow⟩
    · obtain ⟨row, hrow, _⟩ := ganttRow?_of_committed h hs' hqueues hreported hd
      exact Option.isSome_iff_exists.2 ⟨row, hrow⟩

theorem storedJob?_of_decided {d : Decision}
    (hd : d ∈ ((c.frame situation).run m).report.decisions) (hchanged : d.changed = true) :
    ∃ job, s'.storedJob? d.job = some job ∧ s₁.storedJob? d.job = some (d.appliedTo job) := by
  obtain ⟨_, hwaits, hid, _⟩ := job_of_decision hd
  obtain ⟨j, hj, _, _, rfl⟩ := (mem_waiting_iff h).1 hwaits
  have hstored : s'.storedJob? d.job = some j := (Table.find?_eq_some_iff hs'.jobs).2 ⟨hj, hid.symm⟩
  refine ⟨j, hstored, ?_⟩
  rw [hreported.storedJob?, hstored, Option.map_some]
  have hids := nodup_ids_changes (tidy h hs' hqueues).hasTurns m
  have halters : ((c.frame situation).run m).report.alters j.id = true :=
    List.any_eq_true.2 ⟨d, mem_changes.2 ⟨hd, hchanged⟩, by rw [hid]; exact beq_self_eq_true _⟩
  obtain ⟨e, he, heid, haltered⟩ := Report.find?_changes_of_alters halters
  rw [haltered, List.inj_on_of_nodup_map hids he (mem_changes.2 ⟨hd, hchanged⟩) (heid.trans hid.symm)]

end Reported

/-- The store after a pass is the store before it with the decisions of the pass applied. -/
theorem applied_of_run {result : CycleResult} (hs : s.Orderly) (hqueues : c.config.queues.Nodup)
    (hwrites : s.rejectsWrites = false) (hrun : c.run s now = .ok result) :
    ∃ s' catalog, s.fetchCatalog = .ok (s', catalog) ∧
      Store.Applied c.config.queues catalog result.report s result.store := by
  obtain ⟨s', situation, hfetch, hreport, _, hstore⟩ := run_eq_ok hrun
  have h := fetched_of_fetch hfetch
  obtain ⟨hjobs, hgantt⟩ := Store.tables_of_fetchCatalog h.catalog
  have hs' : s'.Orderly := Store.orderly_of_eq hs hjobs hgantt
  have hids := nodup_ids_changes (tidy h hs' hqueues).hasTurns c.matcher
  have haccepts := h.rejectsWrites_eq.trans hwrites
  have hwritten := WriteLog.store_storeReport (w := (s', []))
    ((c.frame situation).run c.matcher).report haccepts hids
  have hreported := WriteLog.reported_storeReport (w := (s', []))
    ((c.frame situation).run c.matcher).report haccepts hids
  rw [hreport] at hstore ⊢
  rw [← hstore] at hwritten hreported
  refine ⟨s', situation.catalog, h.catalog, ?_⟩
  have happlied : Store.Applied c.config.queues situation.catalog
      ((c.frame situation).run c.matcher).report s' result.store := {
    row_iff := fun _ => isSome_ganttRow?_iff h hs' hqueues hreported
    kept := fun _ _ => ganttRow?_of_held h hs' hqueues hreported
    committed := fun _ => ganttRow?_of_committed h hs' hqueues hreported
    decided := fun _ => storedJob?_of_decided h hs' hqueues hreported
    others := fun _ hothers => hreported.storedJob?_of_others fun d hd =>
      hothers d (mem_changes.1 hd).1 (mem_changes.1 hd).2
    kills := fun id => by
      rw [hwritten]
      exact WriteLog.mem_killsWith _ _ id
    requestRows := hreported.requestRows
    resources := by rw [hwritten]
    resourceOrder := by rw [hwritten]
    orderly := by
      rw [hstore]
      exact WriteLog.orderly_storeReport hs' }
  -- The fetch adds a catalog to the store, and nothing that is told here is about that.
  obtain ⟨_, hfetched⟩ := Store.fetchCatalog_eq_ok h.catalog
  subst hfetched
  exact { happlied with }

section Evening

/-- A reservation that has passed, one that is still to come, a job that may take the place of a
best-effort job, and that job. -/
def eveningStore : Store :=
  { Site.reservedSite.store with
    jobs := [{ exampleJob 3 [] 1 with reservation := .scheduled, alternatives := [] },
      { exampleJob 5 [] 2 with alternatives := [] }, Site.reservedJob,
      { exampleJob 9 ["besteffort"] 1 with state := .running, alternatives := [] }]
    requestRows := RowTable.ofAlternatives 5 (exampleJob 5 [] 2).alternatives
    gantt := [⟨3, 30, 20, 10, [1]⟩, ⟨5, 50, 300, 10, [1, 2]⟩, Site.reservedRow, ⟨9, 90, 50, 1000, [2]⟩] }

def eveningSituation : Situation where
  now := 100
  catalog := (twoResourceFrame 9).catalog
  gantt := eveningStore.gantt
  active := [{ exampleJob 9 ["besteffort"] 1 with state := .running, alternatives := [] }]
  waiting := [{ exampleJob 3 [] 1 with reservation := .scheduled, alternatives := [] },
    exampleJob 5 [] 2, Site.reservedJob]
  wakeLead := 0

theorem agenda_eveningSituation : (Site.reservedSite.controller.frame eveningSituation).agenda =
    [.review { exampleJob 3 [] 1 with reservation := .scheduled, alternatives := [] },
      .review Site.reservedJob, .openQueue, .consider (exampleJob 5 [] 2), .showBestEffort,
      .openQueue] := by
  cbv

theorem report_eveningSituation :
    let c := Site.reservedSite.controller
    let report := ((c.frame eveningSituation).run c.matcher).report
    report.decisions.map (fun d => (d.job, d.outcome, d.state, d.changed)) =
        [(3, .error, .error, true), (5, .scheduled, .waiting, false)] ∧
      report.commitments.map (fun c => (c.job.id, c.placement.assignment.start)) = [(5, 100)] ∧
      report.kills = [9] := by
  simp only [Frame.run, PassState.report, PassState.finished, agenda_eveningSituation]
  decide +kernel

theorem fetch_eveningStore :
    Site.reservedSite.controller.fetch eveningStore 100 = .ok (eveningStore, eveningSituation) :=
  rfl

/-- The passed reservation fails, the other one keeps its row, and the job gets one. -/
theorem applied_of_run_evening : ∃ result,
    Site.reservedSite.controller.run eveningStore 100 = .ok result ∧
      (∃ job, result.store.storedJob? 3 = some job ∧ job.state = .error) ∧
      (∃ row, result.store.ganttRow? 5 = some row ∧ row.start = 100) ∧
      result.store.ganttRow? 7 = some Site.reservedRow ∧ 9 ∈ result.store.killRequests := by
  obtain ⟨result, hrun, hreport⟩ := run_of_fetch fetch_eveningStore
  have horderly : eveningStore.Orderly := by
    constructor <;>
    · rw [Table.Ascending]
      decide
  obtain ⟨_, _, _, happlied⟩ := applied_of_run horderly (List.nodup_singleton _) rfl hrun
  obtain ⟨hdecisions, hcommitments, hkills⟩ := report_eveningSituation
  rw [← hreport] at hdecisions hcommitments hkills
  have hjobs : ∀ d ∈ result.report.decisions, (d.job, d.outcome, d.state, d.changed) ∈
      [(3, .error, .error, true), (5, Outcome.scheduled, JobState.waiting, false)] := fun d hd =>
    hdecisions ▸ List.mem_map_of_mem hd
  refine ⟨result, hrun, ?_, ?_, ?_, ?_⟩
  · have hmem : (3, Outcome.error, JobState.error, true) ∈ result.report.decisions.map fun d =>
        (d.job, d.outcome, d.state, d.changed) := hdecisions ▸ List.mem_cons_self
    obtain ⟨d, hd, hsame⟩ := List.mem_map.1 hmem
    simp only [Prod.mk.injEq] at hsame
    obtain ⟨job, _, hstored⟩ := happlied.decided d hd hsame.2.2.2
    exact ⟨_, hsame.1 ▸ hstored, hsame.2.2.1⟩
  · have hmem : (5, 100) ∈ result.report.commitments.map fun c =>
        (c.job.id, c.placement.assignment.start) := hcommitments ▸ List.mem_cons_self
    obtain ⟨d, hd, hsame⟩ := List.mem_map.1 hmem
    obtain ⟨hid, hstart⟩ := Prod.mk.inj hsame
    obtain ⟨row, hrow, hkeeps⟩ := happlied.committed d hd
    exact ⟨row, hid ▸ hrow, hkeeps.start.trans hstart⟩
  · refine happlied.kept 7 _ ⟨Site.reservedJob, rfl, Or.inr ⟨rfl, rfl, ?_, ?_⟩⟩ rfl
    · exact List.mem_singleton_self _
    · intro d hd hid
      have hmem := hjobs d hd
      rw [hid] at hmem
      simp at hmem
  · exact (happlied.kills 9).2 (Or.inr (hkills ▸ List.mem_singleton_self 9))

end Evening

end Controller

end ClusterPlan
