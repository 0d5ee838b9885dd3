import ClusterPlan.Proofs.Catalog.Ids
import ClusterPlan.Proofs.Pass.Fates
import ClusterPlan.Proofs.Pass.Forgetting

/-!
The frame of a second pass at the same second. Its rows and jobs are those of the first pass as the
report of that pass leaves them, so what stands in it is what stood before, together with what the
first pass launched or reserved.
-/

namespace ClusterPlan

/-- The frame with other rows and jobs. -/
def Frame.over (f : Frame) (gantt : List GanttRow) (active waiting : List Job) : Frame :=
  { f with gantt := gantt, active := active, waiting := waiting }

/-- A frame with the rows and jobs that a report leaves, and all else as it was. -/
structure Frame.Resumes (f : Frame) (r : Report) (g : Frame) : Prop where
  same : g = f.over g.gantt g.active g.waiting
  rows : ∀ row, row ∈ g.rows ↔
    row ∈ r.newRows ∨ row ∈ f.rows ∧ row.job ∉ r.dropped ∧ ∀ new ∈ r.newRows, new.job ≠ row.job
  active : ∀ job, job ∈ g.active ↔
    job ∈ f.active ∨ ∃ j ∈ f.waiting, r.altered j = job ∧ job.state.isActive = true
  waiting : g.waiting = (f.waiting.map r.altered).filter fun j => j.state == .waiting

/-- A frame in which a job gets the same place whether or not others have theirs already: no reservation
has passed or is for a best-effort job, and the other jobs have steady requests that no quota
restricts. -/
structure Frame.Unhindered (f : Frame) : Prop where
  current : f.IsCurrent
  reserves : ∀ job ∈ f.waiting, job.isReservation = true → job.isBestEffort = false
  unlimited : ∀ job ∈ f.waiting, job.isReservation = false →
    f.ledger.rules = [] ∨ job.isWithoutQuotas = true
  steady : f.IsSteady
  clock : Time.earliest ≤ f.now

/-- A frame over which a pass can be made again. -/
structure Frame.Repeatable (f : Frame) : Prop extends f.Unhindered where
  tidy : f.Tidy

namespace PassState

variable {f g : Frame} {m : Matcher} {c : Commitment} {row : GanttRow} {o : Nat} {t : Int}

section Rows

/-- The row of a commitment names the resources that were committed. -/
theorem rowOrdinals_row (hc : c ∈ (finished f m).commitments) :
    f.rowOrdinals (c.row f.catalog) = c.placement.assignment.resources := by
  rw [Frame.rowOrdinals, Commitment.row, GanttRow.ofPlacement,
    Catalog.knownIds_congr fun _ => mem_ascending]
  refine Catalog.knownIds_toIds fun o ho => Catalog.isSome_idOf?_of_schedulable ?_
  have hfree := (committed_of_task hc).2.2 o _ (holds_start_of_committed hc ho)
  exact (((loaded_start f m).free _ _).1 hfree).1.2.2

theorem rowOrdinals_of_samePlacement {old : GanttRow} (h : old.samePlacement row = true) :
    old.job = row.job ∧ old.start = row.start ∧ old.walltime = row.walltime ∧
      f.rowOrdinals old = f.rowOrdinals row := by
  have hsame : old.sorted = row.sorted := by simpa [GanttRow.samePlacement] using h
  have hresources := congrArg GanttRow.resources hsame
  refine ⟨(congrArg GanttRow.job hsame :), (congrArg GanttRow.start hsame :),
    (congrArg GanttRow.walltime hsame :), Catalog.knownIds_congr fun id => ?_⟩
  rw [← (List.mergeSort_perm old.resources (· ≤ ·)).mem_iff,
    ← (List.mergeSort_perm row.resources (· ≤ ·)).mem_iff]
  exact iff_of_eq (congrArg (id ∈ ·) hresources)

end Rows

section Over

variable {gantt : List GanttRow} {active waiting : List Job} {job : Job}

theorem placeNow_over (candidates : List (Alternative × Candidate)) (obstacle : Obstacle)
    (s : PassState) :
    placeNow (f.over gantt active waiting) job candidates obstacle s =
      placeNow f job candidates obstacle s := by
  induction candidates generalizing obstacle s with
  | nil => rfl
  | cons e rest ih =>
      simp only [placeNow, ih]
      rfl

theorem bestProposal_over (candidates : List (Alternative × Candidate)) (best : Option Proposal)
    (hit : Option Dimension) (s : PassState) :
    bestProposal (f.over gantt active waiting) job candidates best hit s =
      bestProposal f job candidates best hit s := by
  induction candidates generalizing best hit s with
  | nil => rfl
  | cons e rest ih =>
      simp only [bestProposal, ih]
      rfl

theorem placeReserved_over (start : Int) (results : List (Except Error Candidate))
    (obstacle : Obstacle) (s : PassState) :
    placeReserved (f.over gantt active waiting) job start results obstacle s =
      placeReserved f job start results obstacle s := by
  induction results generalizing obstacle s with
  | nil => rfl
  | cons result rest ih =>
      cases result with
      | error e => exact ih ..
      | ok c =>
          simp only [placeReserved, ih]
          rfl

theorem loadRow_over {gantt : List GanttRow} {active waiting : List Job}
    (h : (f.over gantt active waiting).standing? row = f.standing? row) (s : PassState) :
    loadRow (f.over gantt active waiting) s row = loadRow f s row := by
  simp only [loadRow, h]
  rfl

/-- No task looks at the rows or at the lists of jobs again. -/
theorem perform_over : perform (f.over gantt active waiting) = perform f := by
  funext s task
  cases task with
  | review job =>
      simp only [perform, reviewReservation, placeReservation, placeReserved_over]
      rfl
  | reserve job =>
      simp only [perform, placeReservation, placeReserved_over]
      rfl
  | openQueue => rfl
  | consider job =>
      simp only [perform, consider, place, placeEarliest, placeNow_over, bestProposal_over]
      rfl
  | showBestEffort => rfl

end Over

end PassState

namespace Frame

variable {f : Frame} {job : Job}

theorem Tidy.eq_of_altered {r : Report} {j j' : Job} (h : f.Tidy) (hj : j ∈ f.waiting)
    (hj' : j' ∈ f.waiting) (hid : (r.altered j).id = (r.altered j').id) : j = j' :=
  h.hasTurns.eq_of_id_eq hj hj' (by simpa using hid)

theorem Tidy.activeJob?_eq (h : f.Tidy) (hjob : job ∈ f.active) (hactive : job.state.isActive = true) :
    f.activeJob? job.id = some job := by
  cases hfind : f.activeJob? job.id with
  | none =>
      have hnone := List.find?_eq_none.1 hfind job (List.mem_reverse.2 hjob)
      simp [hactive] at hnone
  | some k =>
      obtain ⟨hk, _, hid⟩ := mem_of_activeJob? hfind
      rw [h.active k hk job hjob hid]

end Frame

namespace Frame.Resumes

open PassState

variable {f g : Frame} {m : Matcher} {c : Commitment} {row : GanttRow} {job : Job} {id last : Int}

section Fields

variable {r : Report} (h : f.Resumes r g)
include h

theorem now : g.now = f.now := by rw [h.same]; rfl

theorem horizon : g.horizon = f.horizon := by rw [h.same]; rfl

theorem heldUntil (start walltime : Int) : g.heldUntil start walltime = f.heldUntil start walltime := by
  rw [h.same]; rfl

theorem rowOrdinals (row : GanttRow) : g.rowOrdinals row = f.rowOrdinals row := by rw [h.same]; rfl

theorem closures : g.closures = f.closures := by rw [h.same]; rfl

theorem catalog : g.catalog = f.catalog := by rw [h.same]; rfl

theorem perform : perform g = perform f := by rw [h.same, perform_over]

end Fields

section Jobs

variable (h : f.Resumes (f.run m).report g) (hf : f.Tidy)
include h

theorem mem_waiting : job ∈ g.waiting ↔
    ∃ j ∈ f.waiting, (f.run m).report.altered j = job ∧ job.state = .waiting := by
  rw [h.waiting, List.mem_filter, List.mem_map, beq_iff_eq]
  constructor
  · rintro ⟨⟨j, hj, hsame⟩, hstate⟩
    exact ⟨j, hj, hsame, hstate⟩
  · rintro ⟨j, hj, hsame, hstate⟩
    exact ⟨⟨j, hj, hsame⟩, hstate⟩

include hf

theorem tidy : g.Tidy where
  queues := by
    rw [h.same]
    exact hf.queues
  waits := by
    intro job hjob
    obtain ⟨j, hj, rfl, hstate⟩ := h.mem_waiting.1 hjob
    refine ⟨hstate, ?_⟩
    rw [h.same, Report.queue_altered]
    exact (hf.waits j hj).2
  waiting := by
    have hids : (f.waiting.map (f.run m).report.altered).map Job.id = f.waiting.map Job.id := by
      rw [List.map_map]
      exact List.map_congr_left fun j _ => Report.id_altered _ j
    rw [h.waiting]
    exact (hids ▸ hf.waiting).sublist (List.filter_sublist.map _)
  active := by
    intro job hjob job' hjob' hid
    rcases (h.active job).1 hjob with hjob | ⟨j, hj, rfl, _⟩ <;>
      rcases (h.active job').1 hjob' with hjob' | ⟨j', hj', rfl, _⟩
    · exact hf.active job hjob job' hjob' hid
    · rw [Report.id_altered] at hid
      exact absurd hid.symm (hf.apart j' hj' job hjob)
    · rw [Report.id_altered] at hid
      exact absurd hid (hf.apart j hj job' hjob')
    · rw [hf.eq_of_altered hj hj' hid]
  apart := by
    intro job hjob job' hjob' hid
    obtain ⟨j, hj, rfl, hstate⟩ := h.mem_waiting.1 hjob
    rcases (h.active job').1 hjob' with hjob' | ⟨j', hj', rfl, hactive⟩
    · rw [Report.id_altered] at hid
      exact hf.apart j hj job' hjob' hid
    · rw [← hf.eq_of_altered hj hj' hid, hstate] at hactive
      cases hactive

end Jobs

section Standing

variable {j : Job} (h : f.Resumes (f.run m).report g) (hf : f.Tidy)
include h hf

theorem standing?_of_active (hactive : f.activeJob? row.job = some job) :
    g.standing? row = some (job, max (f.heldUntil row.start row.walltime) f.now) := by
  obtain ⟨hjob, hstate, hid⟩ := mem_of_activeJob? hactive
  have hmem := (h.active job).2 (Or.inl hjob)
  have hlookup := (h.tidy hf).activeJob?_eq hmem hstate
  rw [hid] at hlookup
  rw [Frame.standing?_of_active hlookup, h.heldUntil, h.now]

theorem standing?_of_launched (hj : j ∈ f.waiting) (hid : row.job = j.id)
    (hstate : ((f.run m).report.altered j).state.isActive = true) :
    g.standing? row = some ((f.run m).report.altered j,
      max (f.heldUntil row.start row.walltime) f.now) := by
  have hmem := (h.active _).2 (Or.inr ⟨j, hj, rfl, hstate⟩)
  have hlookup := (h.tidy hf).activeJob?_eq hmem hstate
  rw [Report.id_altered, ← hid] at hlookup
  rw [Frame.standing?_of_active hlookup, h.heldUntil, h.now]

theorem standing?_of_granted (hj : j ∈ f.waiting) (hid : row.job = j.id)
    (hstate : ((f.run m).report.altered j).state = .waiting)
    (hflag : ((f.run m).report.altered j).reservation = .scheduled) :
    g.standing? row = some ((f.run m).report.altered j, f.heldUntil row.start row.walltime) := by
  have hmem := h.mem_waiting.2 ⟨j, hj, rfl, hstate⟩
  have hnone := activeJob?_eq_none ((h.tidy hf).apart _ hmem)
  have hlookup := (h.tidy hf).hasTurns.reservedJob?_eq hmem hflag
  rw [Report.id_altered, ← hid] at hnone hlookup
  rw [standing?_of_reserved hnone hlookup, h.heldUntil]

/-- The jobs for which rows stand in the second frame. -/
theorem standing?_cases {job' : Job} (hstanding : g.standing? row = some (job', last)) :
    (f.activeJob? row.job = some job' ∧ last = max (f.heldUntil row.start row.walltime) f.now) ∨
      ∃ j ∈ f.waiting, row.job = j.id ∧ (f.run m).report.altered j = job' ∧
        (job'.state.isActive = true ∨ job'.state = .waiting ∧ job'.reservation = .scheduled) := by
  rcases Frame.standing?_cases hstanding with ⟨hactive, rfl⟩ | ⟨_, hreserved, rfl⟩
  · obtain ⟨hjob, hstate, hid⟩ := mem_of_activeJob? hactive
    rcases (h.active job').1 hjob with hjob | ⟨j, hj, rfl, hstate⟩
    · left
      rw [h.heldUntil, h.now, ← hid]
      exact ⟨hf.activeJob?_eq hjob hstate, rfl⟩
    · rw [Report.id_altered] at hid
      exact Or.inr ⟨j, hj, hid.symm, rfl, Or.inl hstate⟩
  · obtain ⟨hjob, hflag, hid⟩ := mem_of_reservedJob? hreserved
    obtain ⟨j, hj, rfl, hstate⟩ := h.mem_waiting.1 hjob
    rw [Report.id_altered] at hid
    exact Or.inr ⟨j, hj, hid.symm, rfl, Or.inr ⟨hstate, hflag⟩⟩

end Standing

end Frame.Resumes

end ClusterPlan
