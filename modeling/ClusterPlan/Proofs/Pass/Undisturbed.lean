import ClusterPlan.Proofs.Pass.Agreement
import ClusterPlan.Proofs.Pass.Once
import ClusterPlan.Proofs.Pass.Rerun

/-!
Best-effort jobs do not disturb the others. A pass from whose input they are left out, with their rows,
begins in a state that agrees with that of the full pass, and it has the same tasks up to the point
where the best-effort jobs come in.
-/

namespace ClusterPlan

/-- A best-effort job that reserves nothing gives way to all others. -/
def Job.yields (job : Job) : Bool := job.isBestEffort && !job.isReservation

namespace Frame

variable {f : Frame} {job : Job} {row : GanttRow} {id : Int}

/-- Whether the row under an id goes with the best-effort jobs: it stands for an active one, or it stands
for no job at all and one that is left out has that id. -/
def leavesOut (f : Frame) (id : Int) : Bool :=
  match f.activeJob? id with
  | some job => job.isBestEffort
  | none => (f.reservedJob? id).isNone &&
      ((f.active.any fun job => job.isBestEffort && job.id == id) ||
        f.waiting.any fun job => job.yields && job.id == id)

/-- The frame without the active best-effort jobs, without the waiting ones that reserve nothing, and
without their rows. -/
def withoutBestEffort (f : Frame) : Frame :=
  f.over (f.gantt.filter fun row => !f.leavesOut row.job)
    (f.active.filter fun job => !job.isBestEffort) (f.waiting.filter fun job => !job.yields)

/-- If jobs are told apart by their ids, the rows left out are those under the ids of the jobs left
out. -/
theorem leavesOut_iff (h : f.Distinct) : f.leavesOut id = true ↔
    (∃ job ∈ f.active, job.isBestEffort = true ∧ job.id = id) ∨
      ∃ job ∈ f.waiting, job.yields = true ∧ job.id = id := by
  rw [leavesOut]
  cases hactive : f.activeJob? id with
  | some j =>
      obtain ⟨hj, _, hid⟩ := mem_of_activeJob? hactive
      constructor
      · exact fun hbest => Or.inl ⟨j, hj, hbest, hid⟩
      · rintro (⟨job, hjob, hbest, heq⟩ | ⟨job, hjob, _, heq⟩)
        · rwa [List.inj_on_of_nodup_map h.parted.1 hj hjob (hid.trans heq.symm)]
        · exact absurd (heq.trans hid.symm) (h.apart hjob j hj)
  | none =>
      simp only [Bool.and_eq_true, Bool.or_eq_true, List.any_eq_true, beq_iff_eq,
        Option.isNone_iff_eq_none, and_iff_right_iff_imp]
      intro hleft
      cases hreserved : f.reservedJob? id with
      | none => rfl
      | some j =>
          obtain ⟨hj, hflag, hid⟩ := mem_of_reservedJob? hreserved
          rcases hleft with ⟨job, hjob, _, heq⟩ | ⟨job, hjob, hyields, heq⟩
          · exact absurd (hid.trans heq.symm) (h.apart hj job hjob)
          · rw [h.hasTurns.eq_of_id_eq hjob hj (heq.trans hid.symm)] at hyields
            simp [Job.yields, Job.isReservation, hflag] at hyields

section Standing

theorem activeJob?_withoutBestEffort (h : f.leavesOut id = false) :
    f.withoutBestEffort.activeJob? id = f.activeJob? id := by
  simp only [activeJob?, withoutBestEffort, Frame.over, ← List.filter_reverse]
  refine find?_filter_of_found fun job hjob => ?_
  have hactive : f.activeJob? id = some job := hjob
  simp only [leavesOut, hactive] at h
  rw [h]
  rfl

theorem reservedJob?_withoutBestEffort :
    f.withoutBestEffort.reservedJob? id = f.reservedJob? id := by
  simp only [reservedJob?, withoutBestEffort, Frame.over, ← List.filter_reverse]
  refine find?_filter_of_found fun job hjob => ?_
  obtain ⟨_, hflag, _⟩ := mem_of_reservedJob? (show f.reservedJob? id = some job from hjob)
  simp [Job.yields, Job.isReservation, hflag]

/-- The rows that stay stand for the same jobs as before. -/
theorem standing?_withoutBestEffort (h : f.leavesOut row.job = false) :
    f.withoutBestEffort.standing? row = f.standing? row := by
  simp only [standing?, activeJob?_withoutBestEffort h, reservedJob?_withoutBestEffort]
  rfl

theorem rows_withoutBestEffort (f : Frame) :
    f.withoutBestEffort.rows = f.rows.filter fun row => !f.leavesOut row.job :=
  Table.ofList_filter (fun id => !f.leavesOut id) f.gantt

end Standing

section Agenda

variable (horder : f.order.IsPreorder)
include horder

/-- Jobs that do not give way have the same tasks. -/
theorem filter_queueJobs_withoutBestEffort {p : Job → Bool} (queue : Name .queue)
    (hp : ∀ job, p job = true → job.yields = false) :
    (f.withoutBestEffort.queueJobs queue).filter p = (f.queueJobs queue).filter p := by
  rw [withoutBestEffort, queueJobs_over horder, List.filter_filter]
  refine List.filter_congr fun job _ => ?_
  cases hjob : p job with
  | false => rfl
  | true =>
      rw [hp job hjob]
      rfl

theorem regularTasks_withoutBestEffort : f.withoutBestEffort.regularTasks = f.regularTasks := by
  have hreservation : ∀ job : Job, job.isReservation = true → job.yields = false := fun job h => by
    rw [Job.yields, h, Bool.not_true, Bool.and_false]
  have hscheduled : ∀ job : Job, (job.reservation == .scheduled) = true → job.yields = false :=
    fun job h => hreservation job (by simp [Job.isReservation, beq_iff_eq.1 h])
  have hasked : ∀ job : Job, (job.reservation == .toSchedule) = true → job.yields = false :=
    fun job h => hreservation job (by simp [Job.isReservation, beq_iff_eq.1 h])
  have hregular : ∀ job : Job, (!job.isReservation && job.isBestEffort == false) = true →
      job.yields = false := fun job h => by
    rw [Bool.and_eq_true, beq_iff_eq] at h
    rw [Job.yields, h.2, Bool.false_and]
  have hreviews : f.withoutBestEffort.reviews = f.reviews := funext fun queue => by
    rw [reviews, reviews, filter_queueJobs_withoutBestEffort horder queue hscheduled]
  have hreserves : f.withoutBestEffort.reserves = f.reserves := funext fun queue => by
    rw [reserves, reserves, filter_queueJobs_withoutBestEffort horder queue hasked]
  have hconsiders : f.withoutBestEffort.considers false = f.considers false := funext fun queue => by
    rw [considers, considers, filter_queueJobs_withoutBestEffort horder queue hregular]
  rw [regularTasks, regularTasks, hreviews, hreserves, hconsiders]
  rfl

end Agenda

theorem job_of_bestEffortTasks_withoutBestEffort {task : Task}
    (h : task ∈ f.withoutBestEffort.bestEffortTasks) : task.job? = none := by
  cases hjob : task.job? with
  | none => rfl
  | some job =>
      obtain ⟨_, hwaits, _, hplain, hbest⟩ := job_of_bestEffortTasks h hjob
      have hstays := (List.mem_filter.1 hwaits).2
      simp [Job.yields, hplain, hbest] at hstays

end Frame

namespace PassState

variable {f : Frame} {s s' : PassState} {row : GanttRow}

section Loading

/-- A row that is left out changes nothing that the others look at. -/
theorem agrees_loadRow_of_leavesOut (h : f.leavesOut row.job = true) (s : PassState) :
    Agrees (loadRow f s row) s := by
  simp only [Frame.leavesOut] at h
  cases hactive : f.activeJob? row.job with
  | some job =>
      simp only [hactive] at h
      have haside : Frame.keepsAside job = true := by
        rw [Frame.keepsAside, h, (Frame.mem_of_activeJob? hactive).2.1]
        rfl
      obtain ⟨notices, hload⟩ :=
        loadRow_of_keepsAside (Frame.standing?_of_active hactive) haside s
      rw [hload]
      exact { Agrees.refl s with }
  | none =>
      simp only [hactive, Bool.and_eq_true, Option.isNone_iff_eq_none] at h
      have hstanding : f.standing? row = none := by
        simp only [Frame.standing?, hactive, h.1, Option.map_none]
      rw [loadRow_of_not_standing hstanding]
      exact .refl s

theorem agrees_loadRows (rows : List GanttRow) (h : Agrees s s') :
    Agrees (rows.foldl (loadRow f) s)
      ((rows.filter fun row => !f.leavesOut row.job).foldl (loadRow f.withoutBestEffort) s') := by
  induction rows generalizing s s' with
  | nil => exact h
  | cons row rest ih =>
      cases hleft : f.leavesOut row.job with
      | true =>
          rw [List.filter_cons_of_neg (by simp [hleft]), List.foldl_cons]
          exact ih ((agrees_loadRow_of_leavesOut hleft s).trans h)
      | false =>
          rw [List.filter_cons_of_pos (by simp [hleft]), List.foldl_cons, List.foldl_cons]
          refine ih ?_
          rw [Frame.withoutBestEffort,
            loadRow_over (Frame.standing?_withoutBestEffort hleft) s']
          exact h.loadRow row

theorem agrees_start (f : Frame) (m : Matcher) :
    Agrees (start f m) (start f.withoutBestEffort m) := by
  have hclosed : f.withoutBestEffort.closures.foldl close (initial f.withoutBestEffort m) =
      f.closures.foldl close (initial f m) := rfl
  have hload : Agrees ((initial f m).load f)
      ((initial f.withoutBestEffort m).load f.withoutBestEffort) := by
    rw [load, load, hclosed, f.rows_withoutBestEffort]
    exact agrees_loadRows f.rows (.refl _)
  exact (Agrees.of_noticeUnknownQueues f _).symm.trans
    (hload.trans (Agrees.of_noticeUnknownQueues f.withoutBestEffort _))

end Loading

section Runs

theorem agrees_beforeBestEffort (horder : f.order.IsPreorder) (m : Matcher) :
    Agrees (beforeBestEffort f m) (beforeBestEffort f.withoutBestEffort m) := by
  rw [beforeBestEffort, beforeBestEffort, Frame.regularTasks_withoutBestEffort horder,
    show perform f.withoutBestEffort = perform f from perform_over]
  exact (agrees_start f m).run (Frame.showBestEffort_not_mem_regularTasks)

/-- Without best-effort jobs nothing is committed or decided any more once theirs would come. -/
theorem finished_withoutBestEffort (f : Frame) (m : Matcher) :
    (finished f.withoutBestEffort m).commitments =
        (beforeBestEffort f.withoutBestEffort m).commitments ∧
      (finished f.withoutBestEffort m).decisions =
        (beforeBestEffort f.withoutBestEffort m).decisions := by
  rw [finished_eq]
  exact outcome_of_no_job (fun _ => Frame.job_of_bestEffortTasks_withoutBestEffort)
    (wellFormed_foldl_occupyPlaced _ _ _ (wellFormed_beforeBestEffort _ m))

/-- What is committed for jobs that do not give way is committed before the best-effort jobs come. -/
theorem commitments_beforeBestEffort (f : Frame) (m : Matcher) :
    ((finished f m).commitments.filter fun c => !c.job.yields) =
      (beforeBestEffort f m).commitments := by
  obtain ⟨new, hnew, hall⟩ := commitments_eq f m
  have hfront : ((beforeBestEffort f m).commitments.filter fun c => !c.job.yields) =
      (beforeBestEffort f m).commitments := by
    rw [List.filter_eq_self]
    intro c hc
    rcases (job_of_mem_beforeBestEffort hc).2.2 with hflag | hregular
    · simp [Job.yields, hflag]
    · simp [Job.yields, hregular]
  have hback : (new.filter fun c => !c.job.yields) = [] := by
    rw [List.filter_eq_nil_iff]
    intro c hc
    obtain ⟨hplain, hbest, _⟩ := hall c hc
    simp [Job.yields, hplain, hbest]
  rw [hnew, List.filter_append, hfront, hback, List.append_nil]

theorem decisions_eq (f : Frame) (m : Matcher) :
    ∃ others, (finished f m).decisions = (beforeBestEffort f m).decisions ++ others ∧
      ∀ d ∈ others, ∃ job ∈ f.waiting, job.yields = true ∧ d.job = job.id := by
  obtain ⟨others, hothers, hall⟩ :=
    new_decision_of_run f f.bestEffortTasks (beforeBestEffort f m).occupyBestEffort
  refine ⟨others, by rw [finished_eq, hothers]; rfl, fun d hd => ?_⟩
  obtain ⟨task, htask, job, hjob, hid, _⟩ := hall d hd
  obtain ⟨_, hwaits, _, hplain, hbest⟩ := Frame.job_of_bestEffortTasks htask hjob
  exact ⟨job, hwaits, by rw [Job.yields, hplain, hbest]; rfl, hid⟩

end Runs

end PassState

/-- A pass without the best-effort jobs commits the same for all others, and the same of them fail: its
decisions are those with which the full pass begins, and what that pass decides after them is about
best-effort jobs that reserve nothing. -/
structure Frame.Undisturbed (f : Frame) (m : Matcher) : Prop where
  commitments : ((f.run m).report.commitments.filter fun c => !c.job.yields) =
    (f.withoutBestEffort.run m).report.commitments
  failures : ∃ others : List Decision,
    (f.run m).report.decisions.map Decision.verdict =
        (f.withoutBestEffort.run m).report.decisions.map Decision.verdict ++
          others.map Decision.verdict ∧
      ∀ d ∈ others, ∃ job ∈ f.waiting, job.yields = true ∧ d.job = job.id

open PassState in
theorem undisturbed_of_preorder {f : Frame} (horder : f.order.IsPreorder) (m : Matcher) :
    f.Undisturbed m where
  commitments := by
    obtain ⟨hcommitments, _⟩ := finished_withoutBestEffort f m
    exact (commitments_beforeBestEffort f m).trans
      ((agrees_beforeBestEffort horder m).commitments.symm.trans hcommitments.symm)
  failures := by
    obtain ⟨others, hothers, hall⟩ := decisions_eq f m
    obtain ⟨_, hdecisions⟩ := finished_withoutBestEffort f m
    refine ⟨others, ?_, hall⟩
    simp only [Frame.run, report, hothers, hdecisions, List.map_append,
      (agrees_beforeBestEffort horder m).verdicts]

/-- A reservation and a regular job, beside an active and a waiting best-effort job. -/
theorem undisturbed_of_preorder_mixed :
    let f := { twoResourceFrame 9 with
      gantt := [⟨8, 80, 120, 10, [1]⟩, ⟨9, 10, 50, 1000, [2]⟩]
      waiting := [exampleReservation, exampleJob 5 [] 2, exampleJob 8 ["besteffort"] 2] }
    f.order.IsPreorder ∧ f.withoutBestEffort.gantt = [] ∧ f.withoutBestEffort.active = [] ∧
      f.withoutBestEffort.waiting = [exampleReservation, exampleJob 5 [] 2] ∧
      f.Undisturbed .empty := by
  intro f
  have horder : f.order.IsPreorder := JobOrder.isPreorder_oldestFirst
  exact ⟨horder, by decide +kernel, by decide +kernel, by decide +kernel,
    undisturbed_of_preorder horder .empty⟩

end ClusterPlan
