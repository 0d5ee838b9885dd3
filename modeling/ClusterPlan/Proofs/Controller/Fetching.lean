import ClusterPlan.Proofs.Lists
import ClusterPlan.Proofs.Pass.Granted
import ClusterPlan.Proofs.Store.Orderly

/-!
What a pass gets from a store. Its jobs are the stored ones with their alternatives put together again,
so ids tell waiting and active jobs apart, and the row of a granted reservation is found as it is
stored.
-/

namespace ClusterPlan

namespace Store

variable {s s' : Store} {jobs found : List Job}

/-- Two jobs that differ in nothing but their alternatives. -/
def SameEntry (stored job : Job) : Prop := job = { stored with alternatives := job.alternatives }

theorem exists_of_assemble (h : s.assemble jobs = .ok found) :
    ∃ alternatives : Job → List Alternative,
      found = jobs.map fun j => { j with alternatives := alternatives j } := by
  simp only [assemble] at h
  split at h
  · cases h
  · cases h
    exact ⟨_, rfl⟩

theorem mem_of_assemble {job : Job} (h : s.assemble jobs = .ok found) (hjob : job ∈ found) :
    ∃ j ∈ jobs, SameEntry j job := by
  obtain ⟨alternatives, rfl⟩ := exists_of_assemble h
  obtain ⟨j, hj, rfl⟩ := List.mem_map.1 hjob
  exact ⟨j, hj, rfl⟩

theorem exists_mem_of_assemble {j : Job} (h : s.assemble jobs = .ok found) (hj : j ∈ jobs) :
    ∃ job ∈ found, SameEntry j job := by
  obtain ⟨alternatives, rfl⟩ := exists_of_assemble h
  exact ⟨_, List.mem_map_of_mem hj, rfl⟩

end Store

namespace Controller

variable {c : Controller} {s s' : Store} {now : Int} {situation : Situation} {job : Job} {id : Int}

/-- The frame of a pass over a situation. -/
def frame (c : Controller) (situation : Situation) : Frame :=
  { situation with config := c.config, order := c.order, remembersFits := true }

/-- What was fetched from a store. -/
structure Fetched (c : Controller) (s : Store) (now : Int) (s' : Store) (situation : Situation) :
    Prop where
  now : situation.now = now
  catalog : s.fetchCatalog = .ok (s', situation.catalog)
  gantt : situation.gantt = s'.gantt
  active : s'.activeJobs = .ok situation.active
  waiting : ∃ lists, c.config.queues.mapM s'.waitingJobs = .ok lists ∧
    situation.waiting = lists.flatten
  wakeLead : situation.wakeLead = c.wakeLead

theorem fetched_of_fetch (h : c.fetch s now = .ok (s', situation)) :
    c.Fetched s now s' situation := by
  simp only [fetch, bind, Except.bind, pure, Except.pure] at h
  split at h
  · cases h
  · rename_i fetched hcatalog
    obtain ⟨store, catalog⟩ := fetched
    split at h
    · cases h
    · rename_i active hactive
      split at h
      · cases h
      · rename_i lists hwaiting
        cases h
        exact ⟨rfl, hcatalog, rfl, hactive, ⟨lists, hwaiting, rfl⟩, rfl⟩

theorem run_eq_ok {result : CycleResult} (h : c.run s now = .ok result) :
    ∃ s' situation, c.fetch s now = .ok (s', situation) ∧
      result.report = ((c.frame situation).run c.matcher).report ∧
      result.matcher = ((c.frame situation).run c.matcher).matcher ∧
      result.store = (WriteLog.storeReport (s', []) result.report).1 := by
  simp only [run, bind, Except.bind, pure, Except.pure] at h
  split at h
  · cases h
  · rename_i fetched hfetch
    obtain ⟨s', situation⟩ := fetched
    cases h
    exact ⟨s', situation, hfetch, rfl, rfl, rfl⟩

/-- A fetch does not depend on what the matcher knows. -/
theorem fetch_of_matcher (c : Controller) (m : Matcher) (s : Store) (now : Int) :
    Controller.fetch { c with matcher := m } s now = c.fetch s now :=
  rfl

/-- Where the fetch succeeds, the pass does. -/
theorem run_of_fetch (h : c.fetch s now = .ok (s', situation)) : ∃ result,
    c.run s now = .ok result ∧ result.report = ((c.frame situation).run c.matcher).report := by
  simp only [run, h, bind, Except.bind, pure, Except.pure]
  exact ⟨_, rfl, rfl⟩

namespace Fetched

theorem stored_of_waiting (h : c.Fetched s now s' situation) (hjob : job ∈ situation.waiting) :
    ∃ j ∈ s'.jobs, Store.SameEntry j job ∧ j.state = .waiting := by
  obtain ⟨lists, hlists, heq⟩ := h.waiting
  rw [heq, List.mem_flatten] at hjob
  obtain ⟨jobs, hjobs, hmem⟩ := hjob
  obtain ⟨queue, _, hanswer⟩ := (answers_of_mapM hlists).1 jobs hjobs
  obtain ⟨j, hj, hsame⟩ := Store.mem_of_assemble hanswer hmem
  simp only [List.mem_filter, Bool.and_eq_true, beq_iff_eq] at hj
  exact ⟨j, hj.1, hsame, hj.2.1⟩

theorem exists_waiting {j : Job} (h : c.Fetched s now s' situation) (hj : j ∈ s'.jobs)
    (hstate : j.state = .waiting) (hqueue : j.queue ∈ c.config.queues) :
    ∃ job ∈ situation.waiting, Store.SameEntry j job := by
  obtain ⟨lists, hlists, heq⟩ := h.waiting
  obtain ⟨jobs, hjobs, hanswer⟩ := (answers_of_mapM hlists).2 j.queue hqueue
  have hlisted : j ∈ s'.jobs.filter fun k => k.state == .waiting && k.queue == j.queue := by
    simp only [List.mem_filter, Bool.and_eq_true, beq_iff_eq]
    exact ⟨hj, hstate, trivial⟩
  obtain ⟨job, hjob, hsame⟩ := Store.exists_mem_of_assemble hanswer hlisted
  rw [heq]
  exact ⟨job, List.mem_flatten.2 ⟨jobs, hjobs, hjob⟩, hsame⟩

theorem stored_of_active (h : c.Fetched s now s' situation) (hjob : job ∈ situation.active) :
    ∃ j ∈ s'.jobs, Store.SameEntry j job ∧ j.state.isActive = true := by
  obtain ⟨j, hj, hsame⟩ := Store.mem_of_assemble h.active hjob
  obtain ⟨hmem, hactive⟩ := List.mem_filter.1 hj
  exact ⟨j, hmem, hsame, hactive⟩

/-- No job waits and is active at the same time. -/
theorem distinct (h : c.Fetched s now s' situation) (hs : s'.Orderly) :
    ∀ job ∈ situation.waiting, ∀ job' ∈ situation.active, job.id ≠ job'.id := by
  intro job hjob job' hjob' hid
  obtain ⟨j, hj, hsame, hwaiting⟩ := h.stored_of_waiting hjob
  obtain ⟨j', hj', hsame', hactive⟩ := h.stored_of_active hjob'
  rw [hsame, hsame'] at hid
  rw [← Table.eq_of_key_eq hs.jobs hj hj' hid, hwaiting] at hactive
  cases hactive

theorem grants {row : GanttRow} {stored : Job} (h : c.Fetched s now s' situation) (hs : s'.Orderly)
    (hstored : s'.storedJob? stored.id = some stored) (hstate : stored.state = .waiting)
    (hflag : stored.reservation = .scheduled) (hqueue : stored.queue ∈ c.config.queues)
    (hrow : s'.ganttRow? stored.id = some row) : (c.frame situation).Grants row := by
  obtain ⟨hmem, hid⟩ := (Table.find?_eq_some_iff hs.gantt).1 hrow
  have hjobs := ((Table.find?_eq_some_iff hs.jobs).1 hstored).1
  obtain ⟨job, hjob, hsame⟩ := h.exists_waiting hjobs hstate hqueue
  have hjobid : job.id = row.job := by
    rw [hsame]
    exact hid.symm
  have hwaits : ∀ k ∈ situation.waiting, k.id = row.job →
      k.state = .waiting ∧ k.reservation = .scheduled := by
    intro k hk hkid
    obtain ⟨j, hj, hsame', _⟩ := h.stored_of_waiting hk
    have hj' : j = stored := by
      apply Table.eq_of_key_eq hs.jobs hj hjobs
      rw [hsame'] at hkid
      exact hkid.trans hid
    rw [hsame', hj']
    exact ⟨hstate, hflag⟩
  refine ⟨?_, ?_, ?_, hwaits⟩
  · have hrows : (c.frame situation).rows = s'.gantt := by
      rw [Frame.rows, frame, h.gantt, Table.ofList_of_ascending hs.gantt]
    rw [hrows]
    exact hmem
  · cases hactive : (c.frame situation).activeJob? row.job with
    | none => rfl
    | some k =>
        obtain ⟨hk, _, hkid⟩ := Frame.mem_of_activeJob? hactive
        exact absurd (hjobid.trans hkid.symm) (h.distinct hs job hjob k hk)
  · cases hreserved : (c.frame situation).reservedJob? row.job with
    | some k => exact ⟨k, rfl⟩
    | none =>
        have hnone := List.find?_eq_none.1 hreserved job (List.mem_reverse.2 hjob)
        simp [hjobid, (hwaits job hjob hjobid).2] at hnone

end Fetched

end Controller

end ClusterPlan
