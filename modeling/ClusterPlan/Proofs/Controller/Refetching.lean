import ClusterPlan.Proofs.Pass.Quiet
import ClusterPlan.Proofs.Store.Assembling
import ClusterPlan.Proofs.Store.Reporting

/-!
What a second pass gets from a store to which the report of the first one was written: the situation of
the first pass as that report leaves it.
-/

namespace ClusterPlan

namespace Store

variable {s s' : Store} {r : Report} {job : Job} {queue : Name .queue}

/-- The active jobs, put together. -/
def activeList (s : Store) : List Job :=
  (s.jobs.filter fun j => j.state.isActive).map s.assembled

/-- The waiting jobs of a queue, put together. -/
def waitingList (s : Store) (queue : Name .queue) : List Job :=
  (s.jobs.filter fun j => j.state == .waiting && j.queue == queue).map s.assembled

theorem mem_activeList : job ∈ s.activeList ↔
    ∃ j ∈ s.jobs, j.state.isActive = true ∧ s.assembled j = job := by
  simp only [activeList, List.mem_map, List.mem_filter, and_assoc]

theorem mem_waitingList : job ∈ s.waitingList queue ↔
    ∃ j ∈ s.jobs, j.state = .waiting ∧ j.queue = queue ∧ s.assembled j = job := by
  simp only [waitingList, List.mem_map, List.mem_filter, Bool.and_eq_true, beq_iff_eq, and_assoc]

theorem assembled_congr (hrows : s'.requestRows = s.requestRows) : s'.assembled = s.assembled := by
  funext job
  rw [assembled, assembled, rowsOf, rowsOf, hrows]

/-- What is written about a job and what its rows describe do not meet. -/
theorem assembled_altered (s : Store) (r : Report) (job : Job) :
    s.assembled (r.altered job) = r.altered (s.assembled job) := by
  rw [assembled, Report.id_altered]
  simp only [Report.altered, assembled]
  cases r.changes.find? fun d => d.job == job.id <;> rfl

end Store

namespace Controller

variable {c : Controller} {s s' s₁ : Store} {now : Int} {situation : Situation} {job j : Job}

/-- What is fetched from a store that has its catalog. -/
def situationOf (c : Controller) (s : Store) (now : Int) (catalog : Catalog) : Situation where
  now := now
  catalog := catalog
  gantt := s.gantt
  active := s.activeList
  waiting := c.config.queues.flatMap s.waitingList
  wakeLead := c.wakeLead

namespace Fetched

theorem catalog_eq (h : c.Fetched s now s' situation) : s'.catalog = some situation.catalog := by
  obtain ⟨_, rfl⟩ := Store.fetchCatalog_eq_ok h.catalog
  rfl

theorem rejectsWrites_eq (h : c.Fetched s now s' situation) : s'.rejectsWrites = s.rejectsWrites := by
  obtain ⟨_, rfl⟩ := Store.fetchCatalog_eq_ok h.catalog
  rfl

theorem situation_eq (h : c.Fetched s now s' situation) :
    situation = c.situationOf s' now situation.catalog := by
  have hactive := (Store.assemble_eq_ok_iff.1 h.active).2
  obtain ⟨lists, hlists, hwaiting⟩ := h.waiting
  have hmap := eq_map_of_mapM (g := s'.waitingList) hlists fun queue found hfound =>
    (Store.assemble_eq_ok_iff.1 hfound).2
  rw [hmap, ← List.flatMap_def] at hwaiting
  obtain ⟨now', catalog, gantt, active, waiting, lead⟩ := situation
  obtain rfl := h.now
  obtain rfl := h.gantt
  obtain rfl := h.wakeLead
  simp only at hactive hwaiting
  subst hactive hwaiting
  rfl

/-- The rows of every job that was fetched can be put together. -/
theorem isWhole (h : c.Fetched s now s' situation) (hj : j ∈ s'.jobs)
    (hfetched : j.state.isActive = true ∨ j.state = .waiting ∧ j.queue ∈ c.config.queues) :
    s'.IsWhole j.id := by
  rcases hfetched with hactive | ⟨hwaiting, hqueue⟩
  · exact (Store.assemble_eq_ok_iff.1 h.active).1 j (List.mem_filter.2 ⟨hj, hactive⟩)
  · obtain ⟨lists, hlists, _⟩ := h.waiting
    obtain ⟨found, _, hfound⟩ := (answers_of_mapM hlists).2 j.queue hqueue
    refine (Store.assemble_eq_ok_iff.1 hfound).1 j (List.mem_filter.2 ⟨hj, ?_⟩)
    rw [hwaiting, beq_self_eq_true, beq_self_eq_true, Bool.and_self]

end Fetched

theorem fetch_eq_ok {catalog : Catalog} (hcatalog : s.catalog = some catalog)
    (hwhole : ∀ j ∈ s.jobs, j.state.isActive = true ∨ j.state = .waiting ∧ j.queue ∈ c.config.queues →
      s.IsWhole j.id) : c.fetch s now = .ok (s, c.situationOf s now catalog) := by
  have hactive : s.activeJobs = .ok s.activeList :=
    Store.assemble_eq_ok_iff.2 ⟨fun j hj => hwhole j (List.mem_filter.1 hj).1
      (Or.inl (List.mem_filter.1 hj).2), rfl⟩
  have hwaiting : c.config.queues.mapM s.waitingJobs = .ok (c.config.queues.map s.waitingList) := by
    refine mapM_eq_ok_of_forall fun queue hqueue => ?_
    refine Store.assemble_eq_ok_iff.2 ⟨fun j hj => ?_, rfl⟩
    obtain ⟨hmem, hwaits⟩ := List.mem_filter.1 hj
    rw [Bool.and_eq_true, beq_iff_eq, beq_iff_eq] at hwaits
    exact hwhole j hmem (Or.inr ⟨hwaits.1, hwaits.2 ▸ hqueue⟩)
  simp only [fetch, Store.fetchCatalog, hcatalog, hactive, hwaiting, bind, Except.bind, pure,
    Except.pure, situationOf, List.flatMap_def]

section Again

variable {m : Matcher} (h : c.Fetched s now s' situation) (hs' : s'.Orderly)

theorem mem_waiting_iff (h : c.Fetched s now s' situation) : job ∈ situation.waiting ↔
    ∃ j ∈ s'.jobs, j.state = .waiting ∧ j.queue ∈ c.config.queues ∧ s'.assembled j = job := by
  rw [h.situation_eq, situationOf, List.mem_flatMap]
  constructor
  · rintro ⟨queue, hqueue, hjob⟩
    obtain ⟨j, hj, hstate, rfl, hsame⟩ := Store.mem_waitingList.1 hjob
    exact ⟨j, hj, hstate, hqueue, hsame⟩
  · rintro ⟨j, hj, hstate, hqueue, hsame⟩
    exact ⟨j.queue, hqueue, Store.mem_waitingList.2 ⟨j, hj, hstate, rfl, hsame⟩⟩

theorem mem_active_iff (h : c.Fetched s now s' situation) : job ∈ situation.active ↔
    ∃ j ∈ s'.jobs, j.state.isActive = true ∧ s'.assembled j = job := by
  rw [h.situation_eq]
  exact Store.mem_activeList

include h hs'

theorem tidy (hqueues : c.config.queues.Nodup) : (c.frame situation).Tidy where
  queues := hqueues
  waits := by
    intro job hjob
    obtain ⟨j, _, hstate, hqueue, rfl⟩ := (mem_waiting_iff h).1 hjob
    exact ⟨hstate, hqueue⟩
  waiting := by
    have hids : s'.jobs.Pairwise fun j k => j.id ≠ k.id := hs'.jobs.imp fun hlt => by omega
    have hlist : ∀ queue, ((s'.waitingList queue).map Job.id).Nodup := fun queue => by
      rw [Store.waitingList, List.map_map]
      exact (List.pairwise_map.2 hids).sublist (List.filter_sublist.map _)
    change (situation.waiting.map Job.id).Nodup
    rw [h.situation_eq, situationOf, List.map_flatMap, List.nodup_flatMap]
    refine ⟨fun queue _ => hlist queue, hqueues.imp fun hne id hid hid' => ?_⟩
    obtain ⟨job, hjob, rfl⟩ := List.mem_map.1 hid
    obtain ⟨job', hjob', hsame⟩ := List.mem_map.1 hid'
    obtain ⟨j, hj, _, rfl, rfl⟩ := Store.mem_waitingList.1 hjob
    obtain ⟨k, hk, _, rfl, rfl⟩ := Store.mem_waitingList.1 hjob'
    exact hne (congrArg Job.queue (Table.eq_of_key_eq hs'.jobs hj hk hsame.symm))
  active := by
    intro job hjob job' hjob' hid
    obtain ⟨j, hj, _, rfl⟩ := (mem_active_iff h).1 hjob
    obtain ⟨k, hk, _, rfl⟩ := (mem_active_iff h).1 hjob'
    rw [Table.eq_of_key_eq hs'.jobs hj hk hid]
  apart := h.distinct hs'

/-- Only waiting jobs of the queues are altered. -/
theorem waits_of_alters (hj : j ∈ s'.jobs)
    (halters : ((c.frame situation).run m).report.alters j.id = true) :
    j.state = .waiting ∧ j.queue ∈ c.config.queues := by
  obtain ⟨d, hd, hid⟩ := List.any_eq_true.1 halters
  obtain ⟨job, hjob, hdjob, _⟩ := PassState.job_of_decision (PassState.mem_changes.1 hd).1
  obtain ⟨k, hk, hstate, hqueue, rfl⟩ := (mem_waiting_iff h).1 hjob
  have hsame : k = j := by
    apply Table.eq_of_key_eq hs'.jobs hk hj
    rw [beq_iff_eq] at hid
    exact hdjob.symm.trans hid
  exact hsame ▸ ⟨hstate, hqueue⟩

theorem altered_of_not_waiting (hj : j ∈ s'.jobs)
    (hwaits : ¬ (j.state = .waiting ∧ j.queue ∈ c.config.queues)) :
    ((c.frame situation).run m).report.altered j = j := by
  refine Report.altered_of_not_alters ?_
  by_contra halters
  exact hwaits (waits_of_alters h hs' hj (Bool.not_eq_false _ ▸ halters))

theorem rows_frame : (c.frame situation).rows = s'.gantt := by
  rw [Frame.rows, frame, h.gantt, Table.ofList_of_ascending hs'.gantt]

variable (hreported : s'.Reported s₁ ((c.frame situation).run m).report)
include hreported

theorem mem_rows_again (hqueues : c.config.queues.Nodup) {row : GanttRow} :
    row ∈ (c.frame (c.situationOf s₁ now situation.catalog)).rows ↔
      ((c.frame situation).run m).report.Leaves (c.frame situation).rows row := by
  have hturns := (tidy h hs' hqueues).hasTurns
  rw [rows_frame h hs', ← hreported.mem_gantt hs' (PassState.newRows_distinct hturns m), Frame.rows,
    frame, situationOf, Table.ofList_of_ascending (hreported.ascending_gantt hs')]

theorem mem_active_again :
    job ∈ (c.situationOf s₁ now situation.catalog).active ↔
      job ∈ situation.active ∨ ∃ k ∈ situation.waiting,
        ((c.frame situation).run m).report.altered k = job ∧ job.state.isActive = true := by
  have hmem : job ∈ (c.situationOf s₁ now situation.catalog).active ↔ ∃ j ∈ s'.jobs,
      (((c.frame situation).run m).report.altered j).state.isActive = true ∧
        s'.assembled (((c.frame situation).run m).report.altered j) = job := by
    refine Store.mem_activeList.trans ?_
    rw [hreported.jobs, Store.assembled_congr hreported.requestRows]
    simp only [List.mem_map, exists_exists_and_eq_and]
  rw [hmem]
  constructor
  · rintro ⟨j, hj, hactive, rfl⟩
    by_cases hwaits : j.state = .waiting ∧ j.queue ∈ c.config.queues
    · exact Or.inr ⟨_, (mem_waiting_iff h).2 ⟨j, hj, hwaits.1, hwaits.2, rfl⟩,
        (Store.assembled_altered ..).symm, hactive⟩
    · rw [altered_of_not_waiting h hs' hj hwaits] at hactive ⊢
      exact Or.inl ((mem_active_iff h).2 ⟨j, hj, hactive, rfl⟩)
  · rintro (hjob | ⟨k, hk, rfl, hactive⟩)
    · obtain ⟨j, hj, hactive, rfl⟩ := (mem_active_iff h).1 hjob
      have hsame := altered_of_not_waiting (m := m) h hs' hj fun hwaits => by
        rw [hwaits.1] at hactive
        cases hactive
      exact ⟨j, hj, hsame.symm ▸ hactive, by rw [hsame]⟩
    · obtain ⟨j, hj, _, _, rfl⟩ := (mem_waiting_iff h).1 hk
      rw [← Store.assembled_altered] at hactive ⊢
      exact ⟨j, hj, hactive, rfl⟩

theorem waitingList_again (queue : Name .queue) :
    s₁.waitingList queue = ((s'.waitingList queue).map
      ((c.frame situation).run m).report.altered).filter fun j => j.state == .waiting := by
  have hcommute : ((c.frame situation).run m).report.altered ∘ s'.assembled =
      s'.assembled ∘ ((c.frame situation).run m).report.altered :=
    funext fun j => (Store.assembled_altered ..).symm
  rw [Store.waitingList, Store.waitingList, hreported.jobs, Store.assembled_congr hreported.requestRows,
    List.map_map, hcommute, List.filter_map, List.filter_map, List.filter_filter, List.map_map]
  refine congrArg _ (List.filter_congr fun j hj => ?_)
  simp only [Function.comp_apply, Report.queue_altered]
  by_cases hwaits : j.state = .waiting ∧ j.queue ∈ c.config.queues
  · simp [hwaits.1, Store.assembled]
  · rw [altered_of_not_waiting h hs' hj hwaits, Store.assembled]
    simp

theorem waiting_again :
    (c.situationOf s₁ now situation.catalog).waiting =
      (situation.waiting.map ((c.frame situation).run m).report.altered).filter fun j =>
        j.state == .waiting := by
  have hwaiting : situation.waiting = c.config.queues.flatMap s'.waitingList := by
    rw [h.situation_eq]
    rfl
  rw [hwaiting, List.map_flatMap, List.filter_flatMap]
  exact List.flatMap_congr fun queue _ => waitingList_again h hs' hreported queue

theorem resumes (hqueues : c.config.queues.Nodup) :
    (c.frame situation).Resumes ((c.frame situation).run m).report
      (c.frame (c.situationOf s₁ now situation.catalog)) where
  same := by
    have hnow := h.now
    have hlead := h.wakeLead
    simp only [Frame.over, frame, situationOf, hnow, hlead]
  rows := fun _ => mem_rows_again h hs' hreported hqueues
  active := fun _ => mem_active_again h hs' hreported
  waiting := waiting_again h hs' hreported

/-- The second fetch succeeds, since it asks for no other rows than the first one. -/
theorem fetch_again :
    c.fetch s₁ now = .ok (s₁, c.situationOf s₁ now situation.catalog) := by
  refine fetch_eq_ok (hreported.catalog.trans h.catalog_eq) fun j hj hfetched => ?_
  rw [hreported.jobs] at hj
  obtain ⟨k, hk, rfl⟩ := List.mem_map.1 hj
  have hwhole : s'.IsWhole k.id := by
    by_cases hwaits : k.state = .waiting ∧ k.queue ∈ c.config.queues
    · exact h.isWhole hk (Or.inr hwaits)
    · rw [altered_of_not_waiting h hs' hk hwaits] at hfetched
      exact h.isWhole hk hfetched
  rw [Report.id_altered]
  obtain ⟨rows, hrows⟩ := hwhole
  refine ⟨rows, ?_⟩
  rw [Store.rowsOf, hreported.requestRows]
  exact hrows

end Again

end Controller

end ClusterPlan
