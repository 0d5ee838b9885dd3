import ClusterPlan.Proofs.Pass.Proposals

/-!
A run made again without the jobs that it settled. Where all that the settled jobs hold is taken from
the beginning, the other jobs get what they got in the full run, one after the other.
-/

namespace ClusterPlan

/-- Whether the task is not about one of the jobs that are gone. -/
def Task.stays (gone : Int → Bool) (task : Task) : Bool := task.job?.all fun job => !gone job.id

theorem Task.filter_map_stays {task : Job → Task} (htask : ∀ job, (task job).job? = some job)
    (gone : Int → Bool) (jobs : List Job) : (jobs.map task).filter (stays gone) =
      (jobs.filter fun job => !gone job.id).map task := by
  rw [List.filter_map]
  refine congrArg (List.map task) (List.filter_congr fun job _ => ?_)
  rw [Function.comp_apply, stays, htask]
  rfl

namespace PassState

variable {f : Frame} {s s' u : PassState} {job : Job} {task : Task} {o : Nat} {t : Int}
  {new added later : List Commitment} {gone : Int → Bool}

section Free

/-- Only commitments take anything from the timeline, before the best-effort jobs come. -/
theorem Step.timeline_eq (h : Step f s s' task) (htask : task ≠ .showBestEffort)
    (hsame : s'.commitments = s.commitments) : s'.timeline = s.timeline := by
  have hmore : ∀ c : Commitment, s'.commitments ≠ s.commitments ++ [c] := by
    intro c hc
    rw [hsame] at hc
    simpa using congrArg List.length hc
  cases h with
  | shown => exact absurd rfl htask
  | opened hs | ahead _ _ hs | delayed _ _ _ _ hs | awaited _ _ _ _ _ hs | started _ _ _ _ _ hs
  | refused _ hs | kept hs | rejected hs | expired _ _ _ hs => exact hs.timeline
  | granted _ _ _ _ hs | planned _ _ hs => exact absurd hs.commitments (hmore _)
  | launched _ hs => exact absurd (hs.commitments.trans (launch_books ..).1) (hmore _)

theorem Step.free_iff (h : Step f s s' task) (hs : s.timeline.WellFormed)
    (htask : task ≠ .showBestEffort) (hnew : s'.commitments = s.commitments ++ new) :
    s'.timeline.Free o t ↔ s.timeline.Free o t ∧ ∀ c ∈ new, ¬ c.placement.Holds o t := by
  rcases h.commitments with ⟨c, hc⟩ | hsame
  · rw [hc.commitments, List.append_cancel_left_eq] at hnew
    rw [hc.free hs, ← hnew, List.forall_mem_singleton]
  · rw [hsame, List.self_eq_append_right] at hnew
    rw [h.timeline_eq htask hsame, hnew]
    simp

theorem free_run (tasks : List Task) (hs : s.timeline.WellFormed)
    (htasks : .showBestEffort ∉ tasks)
    (hnew : (tasks.foldl (perform f) s).commitments = s.commitments ++ new) :
    (tasks.foldl (perform f) s).timeline.Free o t ↔
      s.timeline.Free o t ∧ ∀ c ∈ new, ¬ c.placement.Holds o t := by
  induction tasks generalizing s new with
  | nil =>
      rw [List.foldl_nil, List.self_eq_append_right] at hnew
      simp [hnew]
  | cons task rest ih =>
      rw [List.mem_cons, not_or] at htasks
      have hstep := perform_step f s task
      obtain ⟨first, hfirst, _⟩ := new_commitment_of_run f [task] s hs
      obtain ⟨others, hothers, _⟩ := new_commitment_of_run f rest (perform f s task)
        (hstep.wellFormed hs)
      rw [List.foldl_cons, List.foldl_nil] at hfirst
      rw [List.foldl_cons] at hnew ⊢
      rw [hothers, hfirst, List.append_assoc, List.append_cancel_left_eq] at hnew
      rw [ih (hstep.wellFormed hs) htasks.2 hothers, hstep.free_iff hs (Ne.symm htasks.1) hfirst,
        ← hnew, List.forall_mem_append, and_assoc]

/-- The turn of a job commits for that job, and only what was free. -/
theorem added_of_consider (hs : s.timeline.WellFormed)
    (hadded : (consider f s job).commitments = s.commitments ++ added) {c : Commitment}
    (hc : c ∈ added) : c.job = job ∧ ∀ o t, c.placement.Holds o t → s.timeline.Free o t := by
  obtain ⟨new, hnew, hall⟩ := new_commitment_of_run f [.consider job] s hs
  have hsame : new = added := List.append_cancel_left (hnew.symm.trans hadded)
  subst hsame
  obtain ⟨⟨task, htask, hjob⟩, _, hfree⟩ := hall c hc
  rw [List.mem_singleton.1 htask] at hjob
  cases hjob
  exact ⟨rfl, hfree⟩

/-- Commitments for one job stay or go together. -/
theorem filter_of_same_job (gone : Int → Bool) (hjobs : ∀ c ∈ added, c.job = job) :
    added.filter (fun c => !gone c.job.id) = if gone job.id then [] else added := by
  have hsame : added.filter (fun c => !gone c.job.id) = added.filter fun _ => !gone job.id :=
    List.filter_congr fun c hc => by rw [hjobs c hc]
  rw [hsame]
  cases gone job.id <;> simp

end Free

/-- A second run that has come as far as a first one. What is still to be committed in the first run
for jobs that are gone is taken in the second one already. -/
structure Echo (f : Frame) (gone : Int → Bool) (later : List Commitment) (s u : PassState) : Prop where
  informed : Informed f s
  informed' : Informed f u
  rules : s.ledger.rules = f.ledger.rules
  rules' : u.ledger.rules = f.ledger.rules
  blocker : u.blocker = s.blocker
  free : ∀ o t, u.timeline.Free o t ↔ s.timeline.Free o t ∧
    ∀ c ∈ later, gone c.job.id = true → ¬ c.placement.Holds o t

/-- A waiting job that reserves nothing and that no quota restricts, with steady requests. -/
structure IsPlain (f : Frame) (job : Job) : Prop where
  state : job.state = .waiting
  flag : job.reservation = .none
  unlimited : f.ledger.rules = [] ∨ job.isWithoutQuotas = true
  steady : ∀ e ∈ candidatesOf f.catalog job, e.2.Steady

namespace Echo

theorem lessRoom (h : Echo f gone later s u) : LessRoom f s u where
  times := h.informed.times
  times' := h.informed'.times
  free := fun o t hfree => ((h.free o t).1 hfree).1

/-- What the turn of a job that is not gone commits is free in the second run. -/
theorem free_of_holds (h : Echo f gone (added ++ later) s u) (hstays : gone job.id = false)
    (hadded : (consider f s job).commitments = s.commitments ++ added)
    (hlater : ∀ c ∈ later, ∀ o t, c.placement.Holds o t → (consider f s job).timeline.Free o t)
    {c : Commitment} (hc : c ∈ added) (hholds : c.placement.Holds o t) : u.timeline.Free o t := by
  have hwell := h.informed.times.wellFormed
  have hstep := perform_step f s (.consider job)
  have hfree := hstep.free_iff (o := o) (t := t) hwell nofun hadded
  rw [h.free]
  refine ⟨(added_of_consider hwell hadded hc).2 o t hholds, fun d hd hgone hholds' => ?_⟩
  rcases List.mem_append.1 hd with hd | hd
  · rw [(added_of_consider hwell hadded hd).1, hstays] at hgone
    cases hgone
  · exact (hfree.1 (hlater d hd o t hholds')).2 c hc hholds

theorem turn?_eq (h : Echo f gone (added ++ later) s u) (hplain : IsPlain f job)
    (hclock : Time.earliest ≤ f.now) (hstays : gone job.id = false)
    (hadded : (consider f s job).commitments = s.commitments ++ added)
    (hlater : ∀ c ∈ later, ∀ o t, c.placement.Holds o t → (consider f s job).timeline.Free o t) :
    turn? f u job = turn? f s job := by
  have hturn := (takesTurn_consider h.informed hplain.steady hplain.state hplain.flag).commitments
  simp only [turn?, h.blocker] at hturn ⊢
  cases hblocker : s.blocker with
  | some blocker => simp only [Option.isSome_some, if_true]
  | none =>
      rw [hblocker, hadded, List.append_cancel_left_eq] at hturn
      refine h.lessRoom.proposal?_eq hclock ?_ ?_ hplain.steady fun p hp o t hholds => ?_
      · exact hplain.unlimited.imp_left fun hnone => h.rules.trans hnone
      · exact hplain.unlimited.imp_left fun hnone => h.rules'.trans hnone
      · refine h.free_of_holds hstays hadded hlater ?_ hholds
        rw [hturn]
        simp [hp]

/-- A job that is gone is left out; another one gets in the second run what it got in the first. -/
theorem consider (h : Echo f gone (added ++ later) s u) (hplain : IsPlain f job)
    (hclock : Time.earliest ≤ f.now)
    (hadded : (PassState.consider f s job).commitments = s.commitments ++ added)
    (hlater : ∀ c ∈ later, ∀ o t, c.placement.Holds o t →
      (PassState.consider f s job).timeline.Free o t)
    (hgone : ∀ d, (PassState.consider f s job).decisions = s.decisions ++ [d] →
      gone d.job = d.changed) :
    gone job.id = true ∧ Echo f gone later (PassState.consider f s job) u ∨
      gone job.id = false ∧
        Echo f gone later (PassState.consider f s job) (PassState.consider f u job) ∧
        (PassState.consider f u job).commitments = u.commitments ++ added := by
  have hwell := h.informed.times.wellFormed
  have hstep := perform_step f s (.consider job)
  have hfree := fun o t => hstep.free_iff (o := o) (t := t) hwell nofun hadded
  have hinformed := (h.informed.step (.consider job)).1
  have hrules := hstep.rules.trans h.rules
  have hturn := takesTurn_consider h.informed hplain.steady hplain.state hplain.flag
  obtain ⟨d, hd, hjob, hchanged⟩ := hturn.decided
  have hgone' := hgone d hd
  rw [hjob] at hgone'
  cases hstays : gone job.id with
  | true =>
      rw [hstays] at hgone'
      have hjobs : ∀ c ∈ added, gone c.job.id = true := fun c hc => by
        rw [(added_of_consider hwell hadded hc).1, hstays]
      refine Or.inl ⟨rfl, hinformed, h.informed', hrules, h.rules', ?_, fun o t => ?_⟩
      · rw [hchanged hgone'.symm]
        exact h.blocker
      · have hstep := hfree o t
        simp only [perform] at hstep
        rw [h.free, hstep, List.forall_mem_append, and_assoc]
        refine and_congr_right fun _ => and_congr_left fun _ => ?_
        exact forall₂_congr fun c hc => by simp [hjobs c hc]
  | false =>
      have hstep' := perform_step f u (.consider job)
      have hsame := h.turn?_eq hplain hclock hstays hadded hlater
      have hturn' := takesTurn_consider h.informed' hplain.steady hplain.state hplain.flag
      have hadded' : (PassState.consider f u job).commitments = u.commitments ++ added := by
        rw [hturn'.commitments, hsame, List.append_cancel_left_eq]
        exact List.append_cancel_left (hturn.commitments.symm.trans hadded)
      have hfree' := fun o t =>
        hstep'.free_iff (o := o) (t := t) h.informed'.times.wellFormed nofun hadded'
      refine Or.inr ⟨rfl, ⟨hinformed, (h.informed'.step (.consider job)).1, hrules,
        hstep'.rules.trans h.rules', ?_, fun o t => ?_⟩, hadded'⟩
      · rw [hturn.blocker, hturn'.blocker, hsame, h.blocker]
      · have hstep := hfree o t
        have hstep' := hfree' o t
        simp only [perform] at hstep hstep'
        rw [hstep', hstep, h.free, List.forall_mem_append]
        constructor
        · rintro ⟨⟨hs, -, hrest⟩, hnone⟩
          exact ⟨⟨hs, hnone⟩, hrest⟩
        · rintro ⟨⟨hs, hnone⟩, hrest⟩
          exact ⟨⟨hs, fun c hc _ => hnone c hc, hrest⟩, hnone⟩

/-- A task of a queue that opens it or considers one of its plain jobs. -/
def IsTurn (f : Frame) (task : Task) : Prop :=
  task = .openQueue ∨ ∃ job, task = .consider job ∧ IsPlain f job

theorem openQueue (h : Echo f gone later s u) :
    Echo f gone later (perform f s .openQueue) (perform f u .openQueue) :=
  ⟨(h.informed.step .openQueue).1, (h.informed'.step .openQueue).1, h.rules, h.rules', rfl, h.free⟩

/-- The second run commits what the first one did, except for the jobs that are gone. -/
theorem run {decided : List Decision} (tasks : List Task) (h : Echo f gone new s u)
    (hclock : Time.earliest ≤ f.now) (htasks : ∀ task ∈ tasks, IsTurn f task)
    (hnew : (tasks.foldl (perform f) s).commitments = s.commitments ++ new)
    (hdecided : (tasks.foldl (perform f) s).decisions = s.decisions ++ decided)
    (hgone : ∀ d ∈ decided, gone d.job = d.changed) :
    Echo f gone [] (tasks.foldl (perform f) s)
        ((tasks.filter (Task.stays gone)).foldl (perform f) u) ∧
      ((tasks.filter (Task.stays gone)).foldl (perform f) u).commitments =
        u.commitments ++ new.filter fun c => !gone c.job.id := by
  induction tasks generalizing s u new decided with
  | nil =>
      rw [List.foldl_nil, List.self_eq_append_right] at hnew
      subst hnew
      exact ⟨h, by simp⟩
  | cons task rest ih =>
      obtain ⟨htask, hrest⟩ := List.forall_mem_cons.1 htasks
      have hwell := h.informed.times.wellFormed
      have hwell' := (perform_step f s task).wellFormed hwell
      obtain ⟨later, hlater, hall⟩ := new_commitment_of_run f rest (perform f s task) hwell'
      obtain ⟨decided', hdecided'⟩ := decisions_of_run f rest (perform f s task)
      rw [List.foldl_cons] at hnew hdecided ⊢
      rcases htask with rfl | ⟨job, rfl, hplain⟩
      · have hstays : Task.stays gone .openQueue = true := rfl
        rw [List.filter_cons_of_pos hstays, List.foldl_cons]
        exact ih h.openQueue hrest hnew hdecided hgone
      · obtain ⟨added, hadded, _⟩ := new_commitment_of_run f [.consider job] s hwell
        rw [List.foldl_cons, List.foldl_nil] at hadded
        have hjobs : ∀ c ∈ added, c.job = job := fun c hc => (added_of_consider hwell hadded hc).1
        have hsplit : new = added ++ later := by
          rw [hlater, hadded, List.append_assoc, List.append_cancel_left_eq] at hnew
          exact hnew.symm
        subst hsplit
        have hdecision : ∀ d, (perform f s (.consider job)).decisions = s.decisions ++ [d] →
            gone d.job = d.changed ∧ ∀ d ∈ decided', gone d.job = d.changed := by
          intro d hd
          rw [hdecided', hd, List.append_assoc, List.append_cancel_left_eq] at hdecided
          rw [← hdecided, List.singleton_append, List.forall_mem_cons] at hgone
          exact hgone
        obtain ⟨d, hd, _⟩ :=
          (takesTurn_consider h.informed hplain.steady hplain.state hplain.flag).decided
        have hothers := (hdecision d hd).2
        rcases h.consider hplain hclock hadded (fun c hc => (hall c hc).2.2)
          (fun d hd => (hdecision d hd).1) with ⟨hout, hecho⟩ | ⟨hin, hecho, hadded'⟩
        · have hstays : Task.stays gone (.consider job) = false := by
            simp [Task.stays, Task.job?, hout]
          rw [List.filter_cons_of_neg (by rw [hstays]; nofun), List.filter_append,
            filter_of_same_job gone hjobs, hout, if_pos rfl, List.nil_append]
          exact ih hecho hrest hlater hdecided' hothers
        · have hstays : Task.stays gone (.consider job) = true := by
            simp [Task.stays, Task.job?, hin]
          rw [List.filter_cons_of_pos hstays, List.filter_append, filter_of_same_job gone hjobs, hin,
            if_neg Bool.false_ne_true, ← List.append_assoc, ← hadded']
          exact ih hecho hrest hlater hdecided' hothers

end Echo

end PassState
end ClusterPlan
