import ClusterPlan.Proofs.Pass.Accounts
import ClusterPlan.Proofs.Pass.LaunchSafety
import ClusterPlan.Proofs.Pass.Rerun
import ClusterPlan.Proofs.Pass.Without

/-!
A granted reservation that is over. When the pass looks after it, its row is on the timeline and in the
ledger already. What was recorded is taken back, but nothing is taken off the timeline; so the other
jobs get what they get without it if its resources were held no longer than before now.
-/

namespace ClusterPlan

namespace Frame

variable {f : Frame} {job : Job} {row : GanttRow} {id : Int}

/-- The frame without the waiting job of an id and its row. -/
def withoutWaiting (f : Frame) (id : Int) : Frame :=
  f.over (f.gantt.filter fun row => row.job != id) f.active
    (f.waiting.filter fun job => job.id != id)

/-- A waiting job with a granted reservation, and its row. No other job has its id. -/
structure Reserved (f : Frame) (job : Job) (row : GanttRow) : Prop where
  waits : job ∈ f.waiting
  state : job.state = .waiting
  flag : job.reservation = .scheduled
  alone : ∀ other ∈ f.waiting, other.id = job.id → other = job
  idle : ∀ other ∈ f.active, other.id ≠ job.id
  owner : row.job = job.id
  listed : row ∈ f.rows

section Standing

theorem Reserved.standing?_eq (h : f.Reserved job row) :
    f.standing? row = some (job, f.heldUntil row.start row.walltime) := by
  refine standing?_of_reserved ?_ ?_
  · rw [h.owner]
    exact activeJob?_eq_none fun other hother => (h.idle other hother).symm
  · rw [h.owner]
    exact reservedJob?_eq h.alone h.waits h.flag

theorem rows_withoutWaiting (f : Frame) (id : Int) :
    (f.withoutWaiting id).rows = f.rows.filter fun row => row.job != id :=
  Table.ofList_filter (fun j => j != id) f.gantt

/-- No other row is of the job, so only its own row is left out. -/
theorem Reserved.exists_rows (h : f.Reserved job row) :
    ∃ front back, f.rows = front ++ row :: back ∧ (f.withoutWaiting job.id).rows = front ++ back ∧
      (∀ r ∈ front, r.job ≠ job.id) ∧ ∀ r ∈ back, r.job ≠ job.id := by
  obtain ⟨front, back, hrows⟩ := List.append_of_mem h.listed
  have hdistinct := hrows ▸ f.rows_distinct
  rw [List.pairwise_append, List.pairwise_cons] at hdistinct
  obtain ⟨_, ⟨hlater, _⟩, hearlier⟩ := hdistinct
  have hfront : ∀ r ∈ front, r.job ≠ job.id := fun r hr =>
    h.owner ▸ hearlier r hr row List.mem_cons_self
  have hback : ∀ r ∈ back, r.job ≠ job.id := fun r hr => h.owner ▸ (hlater r hr).symm
  refine ⟨front, back, hrows, ?_, hfront, hback⟩
  rw [f.rows_withoutWaiting, hrows, List.filter_append,
    List.filter_cons_of_neg (by simp [h.owner]), List.filter_eq_self.2, List.filter_eq_self.2]
  · exact fun r hr => bne_iff_ne.2 (hback r hr)
  · exact fun r hr => bne_iff_ne.2 (hfront r hr)

/-- The other rows stand for the same jobs as before. -/
theorem standing?_withoutWaiting (h : row.job ≠ id) :
    (f.withoutWaiting id).standing? row = f.standing? row := by
  have hreserved : (f.withoutWaiting id).reservedJob? row.job = f.reservedJob? row.job := by
    simp only [reservedJob?, withoutWaiting, Frame.over, ← List.filter_reverse]
    refine find?_filter_of_found fun job hjob => ?_
    obtain ⟨_, _, hid⟩ := mem_of_reservedJob? (show f.reservedJob? row.job = some job from hjob)
    rw [hid]
    exact bne_iff_ne.2 h
  simp only [standing?, hreserved]
  rfl

end Standing

section Agenda

theorem count_agenda_le_one (h : f.HasTurns) {task : Task} (hjob : task.job? = some job) :
    f.agenda.count task ≤ 1 := by
  have hcount := List.nodup_iff_count_le_one.1 (nodup_jobs_agenda h) job
  rw [List.count_filterMap] at hcount
  refine le_trans (List.countP_mono_left fun t _ ht => ?_) hcount
  rw [beq_iff_eq.1 ht, hjob]
  exact beq_self_eq_true _

variable (horder : f.order.IsPreorder) (id : Int)
include horder

theorem filter_queueJobs_withoutWaiting (p : Job → Bool) (queue : Name .queue) :
    ((f.withoutWaiting id).queueJobs queue).filter p =
      ((f.queueJobs queue).filter p).filter fun job => job.id != id := by
  rw [withoutWaiting, queueJobs_over horder, List.filter_filter, List.filter_filter]
  simp only [Bool.and_comm]

/-- The tasks are the same, less those that are about the job that is left out. -/
theorem agenda_withoutWaiting :
    (f.withoutWaiting id).agenda = f.agenda.filter (Task.stays fun j => j == id) := by
  have hreviews : (f.withoutWaiting id).reviews = fun queue =>
      (f.reviews queue).filter (Task.stays fun j => j == id) := funext fun queue => by
    rw [reviews, reviews, Task.filter_map_stays fun _ => rfl, filter_queueJobs_withoutWaiting horder]
    rfl
  have hreserves : (f.withoutWaiting id).reserves = fun queue =>
      (f.reserves queue).filter (Task.stays fun j => j == id) := funext fun queue => by
    rw [reserves, reserves, Task.filter_map_stays fun _ => rfl, JobOrder.sort, JobOrder.sort,
      filter_mergeSort JobOrder.isPreorder_oldestFirst.trans
        JobOrder.isPreorder_oldestFirst.total, filter_queueJobs_withoutWaiting horder]
    rfl
  have hconsiders : ∀ bestEffort, (f.withoutWaiting id).considers bestEffort = fun queue =>
      (f.considers bestEffort queue).filter (Task.stays fun j => j == id) := fun _ =>
    funext fun queue => by
      rw [considers, considers, List.filter_cons_of_pos rfl, Task.filter_map_stays fun _ => rfl,
        filter_queueJobs_withoutWaiting horder]
      rfl
  simp only [agenda, List.filter_append, List.filter_flatMap, hreviews, hreserves, hconsiders]
  rw [List.filter_cons_of_pos rfl, List.filter_flatMap]
  rfl

end Agenda

end Frame

namespace PassState

variable {f : Frame} {m : Matcher} {s s' : PassState} {job : Job} {row : GanttRow}
  {number : Nat → Nat}

section Loading

/-- The rows of other jobs. -/
theorem Without.loadRows {id : Int} (rows : List GanttRow) (hrows : ∀ row ∈ rows, row.job ≠ id)
    (h : Without f.now id number s s') :
    Without f.now id number (rows.foldl (PassState.loadRow f) s)
      (rows.foldl (PassState.loadRow (f.withoutWaiting id)) s') := by
  induction rows generalizing s s' with
  | nil => exact h
  | cons row rest ih =>
      obtain ⟨hrow, hrest⟩ := List.forall_mem_cons.1 hrows
      rw [List.foldl_cons, List.foldl_cons, Frame.withoutWaiting,
        loadRow_over (Frame.standing?_withoutWaiting hrow) s']
      exact ih hrest (h.loadRow hrow)

theorem without_start (h : f.Reserved job row)
    (hover : f.heldUntil row.start row.walltime < f.now) (m : Matcher) :
    ∃ number, Function.Injective number ∧
      Without f.now job.id number (start f m) (start (f.withoutWaiting job.id) m) := by
  obtain ⟨front, back, hrows, hleft, hfront, hback⟩ := h.exists_rows
  have hpairs := (List.pairwise_append.1 (hrows ▸ f.rows_distinct)).1
  have hclosed : Without f.now job.id (fun n => n) (f.closures.foldl close (initial f m))
      (f.closures.foldl close (initial f m)) := by
    rw [timeline_foldl_close]
    exact .of_empty f.now job.id rfl rfl rfl
  have hopened := opened_foldl_loadRow front hpairs (opened_closed f m)
  have horigin : (front.foldl (loadRow f) (f.closures.foldl close (initial f m))).timeline.origin =
      f.now := by
    rw [timeline_foldl_loadRow, timeline_foldl_close, Timeline.occupyAll_origin,
      Timeline.occupyAll_origin]
    rfl
  obtain ⟨number, hinjective, hloaded⟩ := (h.owner ▸ hclosed.loadRows front hfront).loadRow_left
    h.standing?_eq h.state hover horigin hopened.lt_next.1 hopened.lt_next.2
  rw [h.owner] at hloaded
  refine ⟨number, hinjective, ?_⟩
  obtain ⟨notices, hnotices⟩ := noticeUnknownQueues_eq f ((initial f m).load f)
  obtain ⟨notices', hnotices'⟩ := noticeUnknownQueues_eq (f.withoutWaiting job.id)
    ((initial (f.withoutWaiting job.id) m).load (f.withoutWaiting job.id))
  rw [start, start, hnotices, hnotices', load, load, hrows, hleft, List.foldl_append,
    List.foldl_append, List.foldl_cons]
  exact { hloaded.loadRows back hback with }

end Loading

section Runs

/-- The turn of the job itself: it does nothing that stays, if what the job has reserved is over, or
else what it asked for. -/
theorem without_review (h : Without f.now job.id number s s')
    (hover : ∀ a, s.reservations.get? job.id = some a → a.last < f.now)
    (hasked : s.reservations.get? job.id = none →
      ∀ start, job.requestedStart = some start → start < f.now) :
    Without f.now job.id number (reviewReservation f s job) s' := by
  simp only [reviewReservation]
  cases hreserved : s.reservations.get? job.id with
  | none =>
      have hnotified : Without f.now job.id number
        (s.notify (.reservationWithoutRow job.id)) s' := { h with }
      simp only [placeReservation]
      cases hstart : job.requestedStart with
      | none => exact hnotified.decide_left rfl ..
      | some start =>
          simp only [if_pos (hasked hreserved start hstart)]
          exact hnotified.decide_left rfl ..
  | some a =>
      simp only [if_pos (hover a hreserved)]
      split
      · exact h
      · exact h.abandon_left.decide_left rfl ..

/-- A run with the turns of the job against one without them. More than one turn the job has only if a
queue is listed again; then what it asked for has to be over, too. -/
theorem without_run (hnumber : Function.Injective number) (tasks : List Task)
    (htasks : ∀ task ∈ tasks, ∀ j, task.job? = some j → j.id = job.id → task = .review job)
    (hturns : tasks.count (.review job) ≤ (s.reservations.get? job.id).toList.length ∨
      ∀ start, job.requestedStart = some start → start < f.now)
    (hover : ∀ a, s.reservations.get? job.id = some a → a.last < f.now)
    (h : Without f.now job.id number s s') :
    Without f.now job.id number (tasks.foldl (perform f) s)
      ((tasks.filter (Task.stays fun j => j == job.id)).foldl (perform f) s') := by
  induction tasks generalizing s s' with
  | nil => exact h
  | cons task rest ih =>
      obtain ⟨htask, hrest⟩ := List.forall_mem_cons.1 htasks
      by_cases hreview : task = .review job
      · subst hreview
        rw [List.filter_cons_of_neg (by simp [Task.stays, Task.job?]), List.foldl_cons]
        rw [List.count_cons_self] at hturns
        have hreviewed := without_review h hover fun hnone =>
          hturns.resolve_left (by simp [hnone])
        rcases (perform_step f s (.review job)).reservations_get? job.id with
          hsame | ⟨j, a, hexpires, hid⟩
        · refine ih hrest ?_ ?_ hreviewed
          · rw [hsame]
            exact hturns.imp_left Nat.le_of_succ_le
          · rw [hsame]
            exact hover
        · have hgiven : (perform f s (.review job)).reservations.get? job.id = none :=
            hid ▸ hexpires.reservations_get?
          refine ih hrest ?_ ?_ hreviewed
          · rw [← hid, hexpires.reserved] at hturns
            exact hturns.imp_left fun hle => Nat.le_trans (Nat.le_of_succ_le_succ hle) (Nat.zero_le _)
          · intro a ha
            cases hgiven.symm.trans ha
      · have hother : ∀ t ∈ [task], ∀ j, t.job? = some j → j.id ≠ job.id :=
          List.forall_mem_singleton.2 fun j hj hid => hreview (htask j hj hid)
        have hstays : Task.stays (fun j => j == job.id) task = true := by
          rw [Task.stays, Option.all_eq_true]
          exact fun j hj => bne_iff_ne.2 (hother task (List.mem_singleton_self _) j hj)
        have hsame := reservations_get?_run (f := f) [task] hother s
        rw [List.foldl_cons, List.foldl_nil] at hsame
        rw [List.filter_cons_of_pos hstays, List.foldl_cons, List.foldl_cons]
        refine ih hrest ?_ ?_ (h.run hnumber [task] hother)
        · rw [hsame]
          exact hturns.imp_left (Nat.le_trans List.count_le_count_cons)
        · rw [hsame]
          exact hover

end Runs

end PassState

/-- A waiting job leaves nothing behind: all that a pass without the job and its row decides about
others, commits and kills, the pass with them does, too, and nothing else. -/
structure Frame.LeavesNothing (f : Frame) (m : Matcher) (id : Int) : Prop where
  decisions : ((f.run m).report.decisions.filter fun d => d.job != id) =
    ((f.withoutWaiting id).run m).report.decisions
  commitments : (f.run m).report.commitments = ((f.withoutWaiting id).run m).report.commitments
  kills : (f.run m).report.kills = ((f.withoutWaiting id).run m).report.kills

open PassState in
/-- Where every queue is listed once, the job has one turn; a further one does nothing if what the job
asked for is over, too. -/
theorem leavesNothing_of_expired {f : Frame} {job : Job} {row : GanttRow}
    (horder : f.order.IsPreorder) (h : f.Reserved job row)
    (hturns : f.HasTurns ∨ ∀ start, job.requestedStart = some start → start < f.now)
    (hover : f.heldUntil row.start row.walltime < f.now) (m : Matcher) :
    f.LeavesNothing m job.id := by
  obtain ⟨number, hinjective, hstart⟩ := without_start h hover m
  have hreserved : (start f m).reservations.get? job.id = some (f.rowAssignment row) :=
    ((loaded_start f m).reservations _ _).2
      ⟨row, h.listed, h.owner, Frame.reservedAssignment?_of_waiting h.standing?_eq h.flag h.state⟩
  have htasks : ∀ task ∈ f.agenda, ∀ j, task.job? = some j → j.id = job.id →
      task = .review job := fun task htask j hj hid => by
    obtain rfl := h.alone j (Frame.job_of_agenda htask hj).1 hid
    exact Frame.review_of_scheduled htask hj h.flag
  have hgranted : ∀ a, (start f m).reservations.get? job.id = some a → a.last < f.now := by
    intro a ha
    obtain rfl := Option.some.inj (hreserved.symm.trans ha)
    exact lt_of_le_of_lt (f.last_le_heldUntil row) hover
  have hperform : perform (f.withoutWaiting job.id) = perform f := perform_over
  have hfinished : Without f.now job.id number (finished f m)
      (finished (f.withoutWaiting job.id) m) := by
    rw [finished, finished, Frame.agenda_withoutWaiting horder, hperform]
    refine without_run hinjective f.agenda htasks (hturns.imp_left fun hf => ?_) hgranted hstart
    rw [hreserved]
    exact Frame.count_agenda_le_one hf rfl
  exact
    { decisions := hfinished.decisions.symm
      commitments := hfinished.commitments.symm
      kills := by simp only [Frame.run, report, hfinished.victims] }

section Late

def lateReservation (start : Int) : Job :=
  { exampleReservation with reservation := .scheduled, requestedStart := some start }

/-- One resource, reserved from some second on, and another job that asks for it. -/
def lateFrame (start : Int) : Frame :=
  { overrunFrame with
    gantt := [⟨7, 70, start, 40, [1]⟩]
    active := []
    waiting := [lateReservation start, exampleJob 8 [] 1]
    config := Config.default }

theorem agenda_lateFrame (start : Int) :
    (lateFrame start).agenda =
      [.review (lateReservation start), .openQueue, .consider (exampleJob 8 [] 1), .showBestEffort,
        .openQueue] := by
  cbv

theorem reserved_lateFrame (start : Int) :
    (lateFrame start).Reserved (lateReservation start) ⟨7, 70, start, 40, [1]⟩ where
  waits := List.mem_cons_self
  state := rfl
  flag := rfl
  alone := by
    rintro other hother hid
    rcases List.mem_cons.1 hother with rfl | hother
    · rfl
    · rw [List.mem_singleton.1 hother] at hid
      cases hid
  idle := List.forall_mem_nil _
  owner := rfl
  listed := List.mem_cons_self

/-- The reservation was over at 39, and its resource was held for a minute more. -/
theorem leavesNothing_of_expired_longAgo :
    (lateFrame 0).heldUntil 0 40 < (lateFrame 0).now ∧ (lateFrame 0).LeavesNothing .empty 7 ∧
      ((lateFrame 0).run .empty).report.decisions.map (fun d => (d.job, d.outcome)) =
        [(7, .error), (8, .toLaunch)] := by
  have hover : (lateFrame 0).heldUntil 0 40 < (lateFrame 0).now := by decide
  have hturns : (lateFrame 0).HasTurns := ⟨by decide, by decide⟩
  have hleaves := leavesNothing_of_expired JobOrder.isPreorder_oldestFirst (reserved_lateFrame 0)
    (Or.inl hturns) hover .empty
  refine ⟨hover, hleaves, ?_⟩
  simp only [Frame.run, PassState.report, PassState.finished, agenda_lateFrame]
  decide +kernel

theorem agenda_lateFrame_withoutWaiting (start : Int) :
    ((lateFrame start).withoutWaiting 7).agenda =
      [.openQueue, .consider (exampleJob 8 [] 1), .showBestEffort, .openQueue] := by
  rw [Frame.agenda_withoutWaiting JobOrder.isPreorder_oldestFirst, agenda_lateFrame]
  rfl

/-- A reservation that was over at 89 takes its resource from the other job at 100. -/
theorem not_leavesNothing_justOver :
    ¬ ∀ (f : Frame) (job : Job) (row : GanttRow) (m : Matcher), f.order.IsPreorder →
      f.Reserved job row → f.HasTurns → Time.windowEnd row.start row.walltime < f.now →
      f.LeavesNothing m job.id := by
  intro h
  have hleaves : (lateFrame 50).LeavesNothing .empty 7 :=
    h _ _ _ .empty JobOrder.isPreorder_oldestFirst (reserved_lateFrame 50)
      ⟨by decide, by decide⟩ (by decide)
  have hfull : ((lateFrame 50).run .empty).report.commitments = [] := by
    simp only [Frame.run, PassState.report, PassState.finished, agenda_lateFrame]
    decide +kernel
  have hreduced : (((lateFrame 50).withoutWaiting 7).run .empty).report.commitments =
      [⟨exampleJob 8 [] 1, ⟨169, ⟨80, 100, 10, .single 0⟩⟩⟩] := by
    simp only [Frame.run, PassState.report, PassState.finished, agenda_lateFrame_withoutWaiting]
    decide +kernel
  have hcommitments := hleaves.commitments
  rw [hfull, hreduced] at hcommitments
  cases hcommitments

end Late

end ClusterPlan
