import ClusterPlan.Proofs.Catalog.Ids
import ClusterPlan.Proofs.Controller.Fetching

/-!
Putting jobs together from their flat rows. The rows of one job have nothing to say against those of
another, so every job is put together from its own rows, whichever other jobs are asked for.
-/

namespace ClusterPlan

namespace RowTable

variable {rows new out : RowTable} {row : RequestRow} {job : Int}

theorem conflict?_filter (rows : RowTable) (row : RequestRow) :
    conflict? (rows.filter fun r => r.job = row.job) row = rows.conflict? row := by
  have hjob : ∀ q : RequestRow → Bool, (∀ r, q r = true → r.job = row.job) →
      (rows.filter fun r => r.job = row.job).find? q = rows.find? q := by
    intro q hq
    rw [List.find?_filter]
    congr 1
    funext r
    cases hqr : q r with
    | false => simp
    | true => simp [hq r hqr]
  have hposition : ∀ r, row.samePosition r = true → r.job = row.job := by
    intro r hr
    simp only [RequestRow.samePosition, Bool.and_eq_true, beq_iff_eq] at hr
    exact hr.1.symm
  have hpart : ∀ r, row.samePart r = true → r.job = row.job := by
    intro r hr
    rw [RequestRow.samePart, Bool.and_eq_true] at hr
    exact hposition r hr.1
  have hlevel : (rows.filter fun r => r.job = row.job).any row.sameLevel = rows.any row.sameLevel := by
    rw [List.any_filter]
    congr 1
    funext r
    cases hr : row.sameLevel r with
    | false => rw [Bool.and_false]
    | true =>
        rw [RequestRow.sameLevel, Bool.and_eq_true] at hr
        simp [hpart r hr.1]
  simp only [conflict?, hjob _ hposition, hjob _ hpart, hlevel]

/-- Rows are accepted if nothing before one of them has anything to say against it. -/
theorem pushAll_eq_ok_iff : pushAll rows new = .ok out ↔
    out = rows ++ new ∧ ∀ front row back, new = front ++ row :: back →
      conflict? (rows ++ front) row = none := by
  induction new generalizing rows with
  | nil => simp [pushAll, eq_comm]
  | cons row rest ih =>
      simp only [pushAll, push]
      cases hconflict : rows.conflict? row with
      | some fault =>
          have hnone : ¬ ∀ front row' back, row :: rest = front ++ row' :: back →
              conflict? (rows ++ front) row' = none := by
            intro hall
            have hfirst := hall [] row rest rfl
            rw [List.append_nil, hconflict] at hfirst
            cases hfirst
          cases fault <;> simp [hnone]
      | none =>
          simp only [ih, List.append_assoc, List.singleton_append]
          refine and_congr_right fun _ => ?_
          constructor
          · intro hall front row' back hsplit
            cases front with
            | nil =>
                cases hsplit
                rw [List.append_nil]
                exact hconflict
            | cons first front =>
                obtain ⟨rfl, hrest⟩ := List.cons.inj hsplit
                exact hall front row' back hrest
          · intro hall front row' back hsplit
            exact hall (row :: front) row' back (by rw [hsplit, List.cons_append])

/-- Rows are accepted if those of each job are. -/
theorem isOk_pushAll_iff : (∃ out, pushAll [] new = .ok out) ↔
    ∀ job : Int, ∃ out, pushAll [] (new.filter fun r => r.job = job) = .ok out := by
  simp only [pushAll_eq_ok_iff, exists_eq_left, List.nil_append]
  constructor
  · intro hall job front row back hsplit
    obtain ⟨front', rest, rfl, rfl, hrest⟩ := List.filter_eq_append_iff.1 hsplit
    obtain ⟨between, back', rfl, hbetween, hjob, rfl⟩ := List.filter_eq_cons_iff.1 hrest
    have hnone := hall (front' ++ between) row back' (by simp)
    have hjob : row.job = job := by simpa using hjob
    have hdifferent : between.filter (fun r => r.job = job) = [] :=
      List.filter_eq_nil_iff.2 fun r hr => hbetween r hr
    rw [← conflict?_filter, hjob, List.filter_append, hdifferent, List.append_nil] at hnone
    exact hnone
  · rintro hall front row back rfl
    rw [← conflict?_filter]
    refine hall row.job (front.filter fun r => r.job = row.job) row
      (back.filter fun r => r.job = row.job) ?_
    rw [List.filter_append, List.filter_cons_of_pos (by simp)]

/-- The alternatives that rows of one job describe. -/
def alternatives (rows : RowTable) : List Alternative :=
  (gather (·.position) rows).filterMap (toAlternative ·.2)

theorem lookup_map_of_keys {β : Type} (value : Int → β) (keys : List Int) (k : Int) :
    (keys.map fun j => (j, value j)).lookup k = if k ∈ keys then some (value k) else none := by
  induction keys with
  | nil => rfl
  | cons j rest ih =>
      rw [List.map_cons, List.lookup_cons, ih]
      by_cases hj : k = j
      · simp [hj]
      · have hne : (k == j) = false := beq_false_of_ne hj
        simp [hj, hne]

theorem lookup_assemble (rows : RowTable) (job : Int) :
    (rows.assemble.lookup job).getD [] = alternatives (rows.filter fun r => r.job = job) := by
  rw [assemble, gather, List.map_map]
  change (((ascending (rows.map (·.job))).map fun j =>
    (j, alternatives (rows.filter fun r => r.job = j))).lookup job).getD [] = _
  rw [lookup_map_of_keys]
  split
  · rfl
  · rename_i hnone
    have hempty : rows.filter (fun r => r.job = job) = [] := by
      rw [List.filter_eq_nil_iff]
      intro r hr hjob
      refine hnone (mem_ascending.2 (List.mem_map.2 ⟨r, hr, by simpa using hjob⟩))
    rw [hempty]
    rfl

end RowTable

namespace Store

variable {s : Store} {jobs found : List Job} {job : Job}

/-- The rows of one job. -/
def rowsOf (s : Store) (id : Int) : RowTable := s.requestRows.filter fun r => r.job = id

/-- Whether the rows of a job do not contradict one another. -/
def IsWhole (s : Store) (id : Int) : Prop := ∃ rows, RowTable.pushAll [] (s.rowsOf id) = .ok rows

/-- The job with its alternatives put together. -/
def assembled (s : Store) (job : Job) : Job :=
  { job with alternatives := RowTable.alternatives (s.rowsOf job.id) }

theorem rowsOf_wanted (hjob : job ∈ jobs) :
    ((s.requestRows.filter fun r => jobs.any fun j => j.id == r.job).filter fun r =>
      r.job = job.id) = s.rowsOf job.id := by
  rw [List.filter_filter]
  refine List.filter_congr fun r _ => ?_
  by_cases hr : r.job = job.id
  · have hany : (jobs.any fun j => j.id == r.job) = true :=
      List.any_eq_true.2 ⟨job, hjob, by rw [hr, beq_self_eq_true]⟩
    rw [hany, Bool.and_true]
  · simp [hr]

theorem rowsOf_unwanted {id : Int} (hnone : ∀ job ∈ jobs, job.id ≠ id) :
    ((s.requestRows.filter fun r => jobs.any fun j => j.id == r.job).filter fun r =>
      r.job = id) = [] := by
  rw [List.filter_filter, List.filter_eq_nil_iff]
  intro r _ hr
  simp only [Bool.and_eq_true, decide_eq_true_eq, List.any_eq_true, beq_iff_eq] at hr
  obtain ⟨rfl, job, hjob, hid⟩ := hr
  exact hnone job hjob hid

/-- Jobs are put together if the rows of each of them can be, and each from its own rows. -/
theorem assemble_eq_ok_iff : s.assemble jobs = .ok found ↔
    (∀ job ∈ jobs, s.IsWhole job.id) ∧ found = jobs.map s.assembled := by
  have hwhole : (∃ rows, RowTable.pushAll []
      (s.requestRows.filter fun r => jobs.any fun j => j.id == r.job) = .ok rows) ↔
      ∀ job ∈ jobs, s.IsWhole job.id := by
    rw [RowTable.isOk_pushAll_iff]
    constructor
    · intro hall job hjob
      have hrows := hall job.id
      rwa [rowsOf_wanted hjob] at hrows
    · intro hall id
      by_cases hid : ∃ job ∈ jobs, job.id = id
      · obtain ⟨job, hjob, rfl⟩ := hid
        rw [rowsOf_wanted hjob]
        exact hall job hjob
      · push Not at hid
        rw [rowsOf_unwanted hid]
        exact ⟨[], rfl⟩
  rw [← hwhole, assemble]
  cases hrows : RowTable.pushAll []
      (s.requestRows.filter fun r => jobs.any fun j => j.id == r.job) with
  | error fault => simp
  | ok rows =>
      have hsame := (RowTable.pushAll_eq_ok_iff.1 hrows).1
      rw [List.nil_append] at hsame
      subst hsame
      have hfound : jobs.map s.assembled = jobs.map fun j => { j with
          alternatives := ((RowTable.assemble
            (s.requestRows.filter fun r => jobs.any fun j => j.id == r.job)).lookup j.id).getD [] } :=
        List.map_congr_left fun j hj => by
          rw [RowTable.lookup_assemble, rowsOf_wanted hj, assembled]
      rw [hfound]
      simp [eq_comm]

end Store

end ClusterPlan
