import ClusterPlan.Proofs.Pass.Taken

/-!
A second pass at the same second. It reviews the reservations that were granted, and it considers the
jobs that the first pass did not alter, in the same order.
-/

namespace ClusterPlan

/-- Any two jobs can be compared, and comparisons chain. -/
structure JobOrder.IsPreorder (order : JobOrder) : Prop where
  trans : ∀ a b c, order a b = true → order b c = true → order a c = true
  total : ∀ a b, (order a b || order b a) = true

theorem JobOrder.isPreorder_oldestFirst : oldestFirst.IsPreorder where
  trans := by
    intro a b c hab hbc
    simp only [oldestFirst, Bool.or_eq_true, Bool.and_eq_true, decide_eq_true_eq, beq_iff_eq] at *
    omega
  total := by
    intro a b
    simp only [oldestFirst, Bool.or_eq_true, Bool.and_eq_true, decide_eq_true_eq, beq_iff_eq]
    omega

theorem JobOrder.isPreorder_newestFirst : newestFirst.IsPreorder where
  trans := by
    intro a b c hab hbc
    simp only [newestFirst, decide_eq_true_eq] at *
    omega
  total := by
    intro a b
    simp only [newestFirst, Bool.or_eq_true, decide_eq_true_eq]
    omega

/-- The jobs of a queue stand in the same order when some of the waiting jobs are left out. -/
theorem Frame.queueJobs_over {f : Frame} (horder : f.order.IsPreorder) (p : Job → Bool)
    (gantt : List GanttRow) (active : List Job) (queue : Name .queue) :
    (f.over gantt active (f.waiting.filter p)).queueJobs queue = (f.queueJobs queue).filter p := by
  rw [queueJobs, queueJobs, JobOrder.sort, JobOrder.sort,
    filter_mergeSort horder.trans horder.total, List.filter_filter]
  simp only [Frame.over, List.filter_filter, Bool.and_comm]

namespace PassState

variable {f : Frame} {m : Matcher} {c : Commitment}

/-- No commitment ends before it starts. -/
theorem le_last_of_committed (hready : m.Ready f.catalog) (hc : c ∈ (finished f m).commitments) :
    c.placement.assignment.start ≤ c.placement.assignment.last := by
  obtain ⟨front, task, back, _, hcommits⟩ := task_of_committed hc
  have hinformed := informed_run front (informed_start hready)
  obtain ⟨candidate, hfinds, hwalltime⟩ := hcommits.isFound
  have hmatch := hfinds.isMatch
  rw [forJob_eq hinformed.serves] at hmatch
  obtain ⟨a, _, hcandidate⟩ := List.mem_map.1 hmatch
  obtain ⟨hpositive, _, _, hsame, _⟩ := Catalog.candidate_eq_ok hcandidate
  have hend := windowEnd_of_attempt hfinds.isFound
  rw [hinformed.times.horizon] at hend
  rw [Assignment.last, ← hwalltime]
  exact Frame.le_windowEnd (hsame ▸ hpositive) hend

end PassState

namespace Frame.Resumes

open PassState

variable {f g : Frame} {m m' : Matcher} {job : Job}

/-- The jobs of a queue that wait without a reservation are those that were not altered. -/
theorem considers_eq (h : f.Resumes (f.run m).report g) (hf : f.Tidy) (horder : f.order.IsPreorder)
    (bestEffort : Bool) (queue : Name .queue) :
    g.considers bestEffort queue =
      (f.considers bestEffort queue).filter (Task.stays (f.run m).report.alters) := by
  have horder' : g.order = f.order := by rw [h.same]; rfl
  rw [considers, considers, List.filter_cons_of_pos rfl, Task.filter_map_stays fun _ => rfl, queueJobs,
    queueJobs, JobOrder.sort, JobOrder.sort, horder', filter_mergeSort horder.trans horder.total,
    filter_mergeSort horder.trans horder.total, filter_mergeSort horder.trans horder.total, h.waiting]
  simp only [List.filter_filter]
  congr 3
  refine filter_map_eq_filter fun j hj => ?_
  cases halters : (f.run m).report.alters j.id with
  | false =>
      rw [Report.altered_of_not_alters halters, (hf.waits j hj).1]
      simp
  | true =>
      refine ⟨?_, by simp⟩
      have hgone := not_plain_of_alters hf hj halters
      rw [Bool.not_true, Bool.false_and, Bool.eq_false_iff]
      intro hwaits
      simp only [Bool.and_eq_true, Bool.not_eq_true', Job.isReservation, bne_eq_false_iff_eq,
        beq_iff_eq] at hwaits
      exact hgone ⟨hwaits.2.2, hwaits.1.1⟩

/-- A row of a granted reservation holds it in the second pass. -/
theorem reserved_of_row {j : Job} {row : GanttRow} (h : f.Resumes (f.run m).report g)
    (hf : f.Tidy) (hrow : row ∈ g.rows) (hj : j ∈ f.waiting) (hid : row.job = j.id)
    (hstate : ((f.run m).report.altered j).state = .waiting)
    (hflag : ((f.run m).report.altered j).reservation = .scheduled) :
    (start g m').reservations.get? j.id ≠ none := by
  have hassignment :=
    reservedAssignment?_of_waiting (h.standing?_of_granted hf hj hid hstate hflag) hflag hstate
  rw [((loaded_start g m').reservations _ _).2 ⟨row, hrow, hid, hassignment⟩]
  exact Option.some_ne_none _

/-- Every reservation that waits after a pass has its row. -/
theorem reserved_again (h : f.Resumes (f.run m).report g) (hf : f.Repeatable)
    (hjob : job ∈ g.waiting) (hflag : job.isReservation = true) :
    (start g m').reservations.get? job.id ≠ none := by
  obtain ⟨j, hj, rfl, hstate⟩ := h.mem_waiting.1 hjob
  have hfate := fate hf.tidy hf.current m hj
  have hstands : ((f.run m).report.altered j).reservation = .scheduled → ∀ row ∈ g.rows,
      row.job = j.id → (start g m').reservations.get? j.id ≠ none := fun hscheduled row hrow hid =>
    h.reserved_of_row hf.tidy hrow hj hid hstate hscheduled
  rw [Report.id_altered]
  generalize hreserved : (start f m).reservations.get? j.id = reserved at hfate
  generalize hcommitted : (finished f m).commitments.filter (fun c => c.job.id == j.id) = committed
    at hfate
  generalize (f.run m).report.altered j = job' at hfate hstate hflag hstands
  cases hfate with
  | stands hsome hscheduled hkept =>
      obtain ⟨a, ha⟩ := Option.ne_none_iff_exists'.1 hsome
      obtain ⟨row, hrow, hid, hassignment⟩ :=
        ((loaded_start f m).reservations _ _).1 (hreserved.trans ha)
      obtain ⟨⟨job, last⟩, hstanding, _⟩ := Option.bind_eq_some_iff.1 hassignment
      rcases hkept with rfl | hlaunched
      · exact hstands hscheduled row
          (h.mem_rows_of_standing hf.tidy hf.current hrow hstanding) hid
      · rw [hlaunched] at hstate
        cases hstate
  | @grants c _ _ _ hc _ _ hscheduled =>
      have hmem : c ∈ (finished f m).commitments.filter fun c => c.job.id == j.id := by
        rw [hcommitted]
        exact List.mem_singleton_self c
      have hcommitted := (List.mem_filter.1 hmem).1
      obtain ⟨row, hrow, hsame⟩ := h.exists_row_of_committed hf.tidy hcommitted
      exact hstands hscheduled row hrow (hc ▸ (kept_row hcommitted hsame).1)
  | waits _ hplain | plans _ hplain =>
      rw [Job.isReservation, hplain] at hflag
      cases hflag
  | fails _ herror =>
      rw [herror] at hstate
      cases hstate
  | launches _ _ _ _ hlaunched =>
      rw [hlaunched] at hstate
      cases hstate

theorem isCurrent (h : f.Resumes (f.run m).report g) (hf : f.Repeatable)
    (hready : m.Ready f.catalog) : g.IsCurrent := by
  intro row hrow a ha
  obtain ⟨rfl, hidle, ⟨job, hjob⟩, _⟩ := standing?_of_reservedAssignment? ha
  obtain ⟨hmem, hflag, _⟩ := mem_of_reservedJob? hjob
  have hstate := ((h.tidy hf.tidy).waits job hmem).1
  have hwaits : job.state.isActive ≠ true := by rw [hstate]; nofun
  rw [h.now]
  rcases h.stood_or_settled hf hrow (standing?_of_reserved hidle hjob) with
    ⟨before, hrow, hbefore, hon⟩ | ⟨c, hc, hsame, _, hsettled⟩
  · obtain rfl := hon.begun.resolve_right hwaits
    have hends := hf.current row hrow _ (reservedAssignment?_of_waiting hbefore hflag hstate)
    exact hends
  · obtain ⟨_, hstart, hwalltime, _⟩ := kept_row hc hsame
    rw [Assignment.last, rowAssignment, hstart, hwalltime]
    exact le_trans (hsettled.begun.resolve_right hwaits) (le_last_of_committed hready hc)

end Frame.Resumes

end ClusterPlan
