import ClusterPlan.Proofs.Lists
import ClusterPlan.Proofs.Pass.Commitments

/-!
The agenda of a pass as a run in two parts. Before the active best-effort jobs are on the timeline only
reservations and regular jobs are placed, after it only best-effort jobs that reserved nothing.
-/

namespace ClusterPlan

namespace Frame

variable {f : Frame} {task : Task} {job : Job} {queue : Name .queue}

/-- The tasks before the active best-effort jobs are put on the timeline. -/
def regularTasks (f : Frame) : List Task :=
  f.config.queues.flatMap f.reviews ++ f.config.queues.flatMap f.reserves ++
    f.config.queues.flatMap (f.considers false)

/-- The tasks after that. -/
def bestEffortTasks (f : Frame) : List Task := f.config.queues.flatMap (f.considers true)

theorem agenda_eq (f : Frame) :
    f.agenda = f.regularTasks ++ .showBestEffort :: f.bestEffortTasks :=
  rfl

theorem mem_sort {order : JobOrder} {jobs : List Job} : job ∈ order.sort jobs ↔ job ∈ jobs :=
  (List.mergeSort_perm _ _).mem_iff

theorem mem_queueJobs :
    job ∈ f.queueJobs queue ↔ job ∈ f.waiting ∧ job.queue = queue ∧ job.state = .waiting := by
  simp only [queueJobs, mem_sort, List.mem_filter, Bool.and_eq_true, beq_iff_eq]

theorem mem_reviews :
    task ∈ f.reviews queue ↔
      ∃ job ∈ f.queueJobs queue, job.reservation = .scheduled ∧ .review job = task := by
  simp only [reviews, List.mem_map, List.mem_filter, beq_iff_eq, and_assoc]

theorem mem_reserves :
    task ∈ f.reserves queue ↔
      ∃ job ∈ f.queueJobs queue, job.reservation = .toSchedule ∧ .reserve job = task := by
  simp only [reserves, List.mem_map, mem_sort, List.mem_filter, beq_iff_eq, and_assoc]

theorem mem_considers {bestEffort : Bool} :
    task ∈ f.considers bestEffort queue ↔ task = .openQueue ∨
      ∃ job ∈ f.queueJobs queue, job.isReservation = false ∧ job.isBestEffort = bestEffort ∧
        .consider job = task := by
  simp only [considers, List.mem_cons, List.mem_map, List.mem_filter, Bool.and_eq_true,
    Bool.not_eq_true', beq_iff_eq, and_assoc]

/-- The tasks before the best-effort jobs are about reservations and regular jobs. -/
theorem job_of_regularTasks (h : task ∈ f.regularTasks) (hjob : task.job? = some job) :
    job ∈ f.waiting ∧ job.state = .waiting ∧
      (job.isReservation = true ∨ job.isBestEffort = false) := by
  simp only [regularTasks, List.mem_append, List.mem_flatMap] at h
  rcases h with (⟨queue, _, h⟩ | ⟨queue, _, h⟩) | ⟨queue, _, h⟩
  · obtain ⟨j, hj, hflag, rfl⟩ := mem_reviews.1 h
    cases hjob
    obtain ⟨hwaiting, _, hstate⟩ := mem_queueJobs.1 hj
    exact ⟨hwaiting, hstate, Or.inl (by simp [Job.isReservation, hflag])⟩
  · obtain ⟨j, hj, hflag, rfl⟩ := mem_reserves.1 h
    cases hjob
    obtain ⟨hwaiting, _, hstate⟩ := mem_queueJobs.1 hj
    exact ⟨hwaiting, hstate, Or.inl (by simp [Job.isReservation, hflag])⟩
  · rcases mem_considers.1 h with rfl | ⟨j, hj, _, hbest, rfl⟩
    · cases hjob
    · cases hjob
      obtain ⟨hwaiting, _, hstate⟩ := mem_queueJobs.1 hj
      exact ⟨hwaiting, hstate, Or.inr hbest⟩

theorem job_of_bestEffortTasks (h : task ∈ f.bestEffortTasks) (hjob : task.job? = some job) :
    task = .consider job ∧ job ∈ f.waiting ∧ job.state = .waiting ∧ job.isReservation = false ∧
      job.isBestEffort = true := by
  simp only [bestEffortTasks, List.mem_flatMap] at h
  obtain ⟨queue, _, h⟩ := h
  rcases mem_considers.1 h with rfl | ⟨j, hj, hreservation, hbest, rfl⟩
  · cases hjob
  · cases hjob
    obtain ⟨hwaiting, _, hstate⟩ := mem_queueJobs.1 hj
    exact ⟨rfl, hwaiting, hstate, hreservation, hbest⟩

theorem showBestEffort_not_mem_regularTasks : .showBestEffort ∉ f.regularTasks := by
  intro h
  simp only [regularTasks, List.mem_append, List.mem_flatMap] at h
  rcases h with (⟨queue, _, h⟩ | ⟨queue, _, h⟩) | ⟨queue, _, h⟩
  · obtain ⟨_, _, _, h⟩ := mem_reviews.1 h
    cases h
  · obtain ⟨_, _, _, h⟩ := mem_reserves.1 h
    cases h
  · rcases mem_considers.1 h with h | ⟨_, _, _, _, h⟩ <;> cases h

/-- The tasks after the reviews. -/
def laterTasks (f : Frame) : List Task :=
  f.config.queues.flatMap f.reserves ++ f.config.queues.flatMap (f.considers false) ++
    .showBestEffort :: f.bestEffortTasks

theorem agenda_eq_reviews (f : Frame) :
    f.agenda = f.config.queues.flatMap f.reviews ++ f.laterTasks := by
  simp only [agenda, laterTasks, bestEffortTasks, List.append_assoc]

theorem review_not_mem_laterTasks : .review job ∉ f.laterTasks := by
  intro h
  simp only [laterTasks, bestEffortTasks, List.mem_append, List.mem_cons, List.mem_flatMap] at h
  rcases h with (⟨queue, _, h⟩ | ⟨queue, _, h⟩) | h | ⟨queue, _, h⟩
  · obtain ⟨_, _, _, h⟩ := mem_reserves.1 h
    cases h
  · rcases mem_considers.1 h with h | ⟨_, _, _, _, h⟩ <;> cases h
  · cases h
  · rcases mem_considers.1 h with h | ⟨_, _, _, _, h⟩ <;> cases h

/-- Nothing but reviews comes before a review. -/
theorem reviews_before_review {front back : List Task}
    (h : f.agenda = front ++ .review job :: back) :
    (∀ task ∈ front, ∃ j, task = .review j) ∧
      ∃ queue ∈ f.config.queues, job ∈ f.queueJobs queue ∧ job.reservation = .scheduled := by
  rw [agenda_eq_reviews] at h
  obtain ⟨rest, hrest⟩ := split_of_not_mem h review_not_mem_laterTasks
  have hmem : ∀ task ∈ front ++ .review job :: rest, ∃ queue ∈ f.config.queues,
      ∃ j ∈ f.queueJobs queue, j.reservation = .scheduled ∧ .review j = task := by
    intro task htask
    rw [← hrest, List.mem_flatMap] at htask
    obtain ⟨queue, hqueue, htask⟩ := htask
    exact ⟨queue, hqueue, mem_reviews.1 htask⟩
  constructor
  · intro task htask
    obtain ⟨_, _, j, _, _, rfl⟩ := hmem task (List.mem_append_left _ htask)
    exact ⟨j, rfl⟩
  · obtain ⟨queue, hqueue, j, hj, hflag, heq⟩ := hmem (.review job) (by simp)
    cases heq
    exact ⟨queue, hqueue, hj, hflag⟩

/-- Every front part of the agenda is some reviews and then other tasks. -/
theorem phases_of_agenda {front back : List Task} (h : f.agenda = front ++ back) :
    ∃ reviews later, front = reviews ++ later ∧
      (∀ task ∈ reviews, ∃ job, task = .review job ∧
        ∃ queue ∈ f.config.queues, job ∈ f.queueJobs queue ∧ job.reservation = .scheduled) ∧
      ∀ task ∈ later, ∀ job, task ≠ .review job := by
  have hreviews : ∀ task ∈ f.config.queues.flatMap f.reviews, ∃ job, task = .review job ∧
      ∃ queue ∈ f.config.queues, job ∈ f.queueJobs queue ∧ job.reservation = .scheduled := by
    intro task htask
    obtain ⟨queue, hqueue, htask⟩ := List.mem_flatMap.1 htask
    obtain ⟨job, hjob, hflag, rfl⟩ := mem_reviews.1 htask
    exact ⟨job, rfl, queue, hqueue, hjob, hflag⟩
  have hlater : ∀ task ∈ f.laterTasks, ∀ job, task ≠ .review job := by
    rintro task htask job rfl
    exact review_not_mem_laterTasks htask
  rw [agenda_eq_reviews] at h
  rcases List.append_eq_append_iff.1 h with ⟨between, hfront, hrest⟩ | ⟨between, hall, _⟩
  · refine ⟨_, between, hfront, hreviews, fun task htask => hlater task ?_⟩
    rw [hrest]
    exact List.mem_append_left _ htask
  · refine ⟨front, [], (List.append_nil _).symm, fun task htask => hreviews task ?_,
      List.forall_mem_nil _⟩
    rw [hall]
    exact List.mem_append_left _ htask

/-- How a job comes to have a task: by its flag. -/
theorem job_of_agenda (h : task ∈ f.agenda) (hjob : task.job? = some job) :
    job ∈ f.waiting ∧ job.state = .waiting ∧
      (task = .review job ∧ job.reservation = .scheduled ∨
        task = .reserve job ∧ job.reservation = .toSchedule ∨
        task = .consider job ∧ job.isReservation = false) := by
  have hqueued : ∀ {queue}, job ∈ f.queueJobs queue → job ∈ f.waiting ∧ job.state = .waiting :=
    fun hmem => ⟨(mem_queueJobs.1 hmem).1, (mem_queueJobs.1 hmem).2.2⟩
  have hconsidered : ∀ {bestEffort queue}, task ∈ f.considers bestEffort queue →
      task = .consider job ∧ job.isReservation = false ∧ ∃ queue, job ∈ f.queueJobs queue := by
    intro bestEffort queue hmem
    rcases mem_considers.1 hmem with rfl | ⟨j, hj, hplain, _, rfl⟩
    · cases hjob
    · cases hjob
      exact ⟨rfl, hplain, queue, hj⟩
  rw [agenda_eq_reviews, List.mem_append] at h
  simp only [laterTasks, bestEffortTasks, List.mem_append, List.mem_cons, List.mem_flatMap] at h
  rcases h with ⟨queue, _, h⟩ | (⟨queue, _, h⟩ | ⟨queue, _, h⟩) | rfl | ⟨queue, _, h⟩
  · obtain ⟨j, hj, hflag, rfl⟩ := mem_reviews.1 h
    cases hjob
    exact ⟨(hqueued hj).1, (hqueued hj).2, Or.inl ⟨rfl, hflag⟩⟩
  · obtain ⟨j, hj, hflag, rfl⟩ := mem_reserves.1 h
    cases hjob
    exact ⟨(hqueued hj).1, (hqueued hj).2, Or.inr (Or.inl ⟨rfl, hflag⟩)⟩
  · obtain ⟨htask, hplain, _, hj⟩ := hconsidered h
    exact ⟨(hqueued hj).1, (hqueued hj).2, Or.inr (Or.inr ⟨htask, hplain⟩)⟩
  · cases hjob
  · obtain ⟨htask, hplain, _, hj⟩ := hconsidered h
    exact ⟨(hqueued hj).1, (hqueued hj).2, Or.inr (Or.inr ⟨htask, hplain⟩)⟩

theorem review_of_scheduled (h : task ∈ f.agenda) (hjob : task.job? = some job)
    (hflag : job.reservation = .scheduled) : task = .review job := by
  rcases (job_of_agenda h hjob).2.2 with ⟨hreview, _⟩ | ⟨_, hother⟩ | ⟨_, hplain⟩
  · exact hreview
  · rw [hflag] at hother
    cases hother
  · rw [Job.isReservation, hflag] at hplain
    cases hplain

theorem job_of_consider (h : .consider job ∈ f.agenda) :
    job ∈ f.waiting ∧ job.isReservation = false := by
  obtain ⟨hwaiting, _, ⟨htask, _⟩ | ⟨htask, _⟩ | ⟨_, hplain⟩⟩ := job_of_agenda h rfl
  · cases htask
  · cases htask
  · exact ⟨hwaiting, hplain⟩

end Frame

namespace PassState

variable {f : Frame} {s s' : PassState} {task : Task} {id : Int} {row : GanttRow} {job : Job}
  {o : Nat} {t : Int}

/-- The state when the active best-effort jobs come on the timeline. -/
def beforeBestEffort (f : Frame) (m : Matcher) : PassState :=
  f.regularTasks.foldl (perform f) (start f m)

theorem finished_eq (f : Frame) (m : Matcher) :
    finished f m =
      f.bestEffortTasks.foldl (perform f) (beforeBestEffort f m).occupyBestEffort := by
  rw [finished, Frame.agenda_eq, List.foldl_append, List.foldl_cons]
  rfl

theorem bestEffort_run (f : Frame) (tasks : List Task) (s : PassState) :
    (tasks.foldl (perform f) s).bestEffort = s.bestEffort := by
  induction tasks generalizing s with
  | nil => rfl
  | cons task rest ih => exact (ih _).trans (perform_step f s task).bestEffort

theorem Step.reservations_get?_of_none (h : Step f s s' task)
    (hnone : s.reservations.get? id = none) : s'.reservations.get? id = none := by
  rcases h.reservations_get? id with hsame | ⟨j, a, hexpires, rfl⟩
  · rw [hsame]
    exact hnone
  · exact hexpires.reservations_get?

/-- Only a commitment for the job changes what is placed for an id that reserves nothing. -/
theorem Step.placements_of_none (h : Step f s s' task) (hnone : s.reservations.get? id = none)
    (hother : ∀ c ∈ s'.commitments, c.job.id ≠ id) :
    s'.placements.get? id = s.placements.get? id := by
  rcases h.placements_get? id with hsame | ⟨c, hc, hid⟩ | ⟨j, a, hexpires, rfl⟩
  · exact hsame
  · exact absurd hid (hother c (by rw [hc.commitments]; simp))
  · have hreserved := hexpires.reserved
    rw [hnone] at hreserved
    cases hreserved

theorem placements_run (f : Frame) (tasks : List Task) (s : PassState)
    (hs : s.timeline.WellFormed) (hnone : s.reservations.get? id = none)
    (hother : ∀ c ∈ (tasks.foldl (perform f) s).commitments, c.job.id ≠ id) :
    (tasks.foldl (perform f) s).placements.get? id = s.placements.get? id := by
  induction tasks generalizing s with
  | nil => rfl
  | cons task rest ih =>
      have hstep := perform_step f s task
      have hwell := hstep.wellFormed hs
      obtain ⟨new, hnew, _⟩ := new_commitment_of_run f rest (perform f s task) hwell
      rw [List.foldl_cons] at hother ⊢
      rw [ih _ hwell (hstep.reservations_get?_of_none hnone) hother]
      apply hstep.placements_of_none hnone
      intro c hc
      exact hother c (by rw [hnew]; exact List.mem_append_left _ hc)

/-- Every commitment of a pass has its task. -/
theorem task_of_committed {m : Matcher} {c : Commitment} (hc : c ∈ (finished f m).commitments) :
    ∃ front task back, f.agenda = front ++ task :: back ∧
      Commits f (front.foldl (perform f) (start f m))
        (perform f (front.foldl (perform f) (start f m)) task) task c := by
  have hloaded := loaded_start f m
  obtain ⟨earlier, later, hsplit⟩ := List.append_of_mem hc
  obtain ⟨front, task, back, hagenda, _, hcommits⟩ := task_of_commitment f.agenda (start f m)
    hloaded.wellFormed (by rw [hloaded.commitments]; exact Nat.zero_le _) hsplit
  exact ⟨front, task, back, hagenda, hcommits⟩

theorem mem_finished_of_commits {m : Matcher} {front back : List Task} {c : Commitment}
    (hagenda : f.agenda = front ++ task :: back)
    (hcommits : Commits f (front.foldl (perform f) (start f m))
      (perform f (front.foldl (perform f) (start f m)) task) task c) :
    c ∈ (finished f m).commitments := by
  have hwell := (books_run f front (start f m) (books_start f m)).wellFormed
  obtain ⟨new, hnew, _⟩ :=
    new_commitment_of_run f back _ ((perform_step f _ task).wellFormed hwell)
  rw [finished, hagenda, List.foldl_append, List.foldl_cons, hnew, hcommits.commitments]
  simp

theorem holds_start_of_committed {m : Matcher} {c : Commitment}
    (hc : c ∈ (finished f m).commitments) (ho : o ∈ c.placement.assignment.resources) :
    c.placement.Holds o c.placement.assignment.start := by
  obtain ⟨front, task, back, _, hcommits⟩ := task_of_committed hc
  exact hcommits.holds_start (books_run f front _ (books_start f m)).wellFormed ho

theorem committed_of_task {m : Matcher} {c : Commitment} (hc : c ∈ (finished f m).commitments) :
    c.job ∈ f.waiting ∧
      c.placement.heldUntil =
        f.heldOnTimeline c.placement.assignment.start c.placement.assignment.walltime ∧
      ∀ o t, c.placement.Holds o t → (start f m).timeline.Free o t := by
  have hloaded := loaded_start f m
  obtain ⟨new, hnew, hall⟩ := new_commitment_of_run f f.agenda (start f m) hloaded.wellFormed
  rw [finished, hnew, hloaded.commitments, List.nil_append] at hc
  obtain ⟨⟨task, htask, hjob⟩, hheld, hfree⟩ := hall c hc
  exact ⟨(Frame.job_of_agenda htask hjob).1, hheld, hfree⟩

/-- What is committed before the best-effort jobs come is for a reservation or a regular job. -/
theorem job_of_mem_beforeBestEffort {m : Matcher} {c : Commitment}
    (hc : c ∈ (beforeBestEffort f m).commitments) :
    c.job ∈ f.waiting ∧ c.job.state = .waiting ∧
      (c.job.isReservation = true ∨ c.job.isBestEffort = false) := by
  have hloaded := loaded_start f m
  obtain ⟨new, hnew, hall⟩ := new_commitment_of_run f f.regularTasks (start f m) hloaded.wellFormed
  rw [beforeBestEffort, hnew, hloaded.commitments, List.nil_append] at hc
  obtain ⟨⟨task, htask, hjob⟩, _⟩ := hall c hc
  exact Frame.job_of_regularTasks htask hjob

theorem not_mem_beforeBestEffort {m : Matcher} {c : Commitment}
    (hbest : c.job.isBestEffort = true) (hplain : c.job.isReservation = false) :
    c ∉ (beforeBestEffort f m).commitments := by
  intro hc
  cases (job_of_mem_beforeBestEffort hc).2.2 with
  | inl hreservation =>
      rw [hplain] at hreservation
      cases hreservation
  | inr hregular =>
      rw [hbest] at hregular
      cases hregular

theorem wellFormed_beforeBestEffort (f : Frame) (m : Matcher) :
    (beforeBestEffort f m).timeline.WellFormed :=
  (books_run f f.regularTasks (start f m) (books_start f m)).wellFormed

/-- The placement of an active job stays, unless something was committed under its id. -/
theorem placements_of_active {m : Matcher} (hrow : row ∈ f.rows)
    (hactive : f.activeJob? row.job = some job)
    (hother : ∀ c ∈ (beforeBestEffort f m).commitments, c.job.id ≠ row.job) :
    (beforeBestEffort f m).placements.get? row.job =
      some ⟨max (f.heldUntil row.start row.walltime) f.now, f.rowAssignment row⟩ := by
  have hloaded := loaded_start f m
  have hstanding := Frame.standing?_of_active hactive
  obtain ⟨_, hstate, _⟩ := Frame.mem_of_activeJob? hactive
  have hnone : (start f m).reservations.get? row.job = none := by
    cases hget : (start f m).reservations.get? row.job with
    | none => rfl
    | some a =>
        obtain ⟨r, hr, hid, ha⟩ := (hloaded.reservations _ _).1 hget
        rw [Table.eq_of_key_eq f.ascending_rows hr hrow hid, Frame.reservedAssignment?, hstanding,
          Option.bind_some, hstate, Bool.not_true, Bool.and_false] at ha
        cases ha
  rw [beforeBestEffort, placements_run f _ _ hloaded.wellFormed hnone hother]
  refine (hloaded.placements _ _).2 ⟨row, hrow, rfl, ?_⟩
  rw [Frame.standingPlacement?, hstanding, Option.map_some]

/-- The resources of an active best-effort job are taken from the best-effort jobs, unless something
was committed under its id. -/
theorem not_free_of_bestEffort {m : Matcher} (hrow : row ∈ f.rows)
    (hactive : f.activeJob? row.job = some job) (hbest : job.isBestEffort = true)
    (hother : ∀ c ∈ (beforeBestEffort f m).commitments, c.job.id ≠ row.job)
    (ho : o ∈ f.rowOrdinals row) (hfirst : row.start ≤ t)
    (hlast : t ≤ max (f.heldUntil row.start row.walltime) f.now) :
    ¬ (beforeBestEffort f m).occupyBestEffort.timeline.Free o t := by
  obtain ⟨_, hstate, _⟩ := Frame.mem_of_activeJob? hactive
  have haside : Frame.keepsAside job = true := by
    rw [Frame.keepsAside, hbest, hstate, Bool.and_self]
  have hentry : (row.job, f.rowOrdinals row) ∈ (beforeBestEffort f m).bestEffort := by
    rw [beforeBestEffort, bestEffort_run, (loaded_start f m).bestEffort, List.mem_filterMap]
    refine ⟨row, hrow, ?_⟩
    rw [Frame.aside?, Frame.standing?_of_active hactive, Option.bind_some, if_pos haside]
  intro hfree
  rw [occupyBestEffort_timeline,
    free_foldl_occupyPlaced _ _ _ (wellFormed_beforeBestEffort f m)] at hfree
  exact hfree.2 _ hentry _ (placements_of_active hrow hactive hother) ⟨hfirst, hlast, ho⟩

/-- What is committed before the best-effort jobs come stands first. -/
theorem commitments_eq (f : Frame) (m : Matcher) :
    ∃ new, (finished f m).commitments = (beforeBestEffort f m).commitments ++ new ∧
      ∀ c ∈ new, c.job.isReservation = false ∧ c.job.isBestEffort = true ∧
        ∀ o t, c.placement.Holds o t →
          (beforeBestEffort f m).occupyBestEffort.timeline.Free o t := by
  have hwell : (beforeBestEffort f m).occupyBestEffort.timeline.WellFormed :=
    wellFormed_foldl_occupyPlaced _ _ _ (wellFormed_beforeBestEffort f m)
  obtain ⟨new, hnew, hall⟩ := new_commitment_of_run f f.bestEffortTasks _ hwell
  refine ⟨new, by rw [finished_eq, hnew]; rfl, fun c hc => ?_⟩
  obtain ⟨⟨task, htask, hjob⟩, _, hfree⟩ := hall c hc
  obtain ⟨_, _, _, hreservation, hbest⟩ := Frame.job_of_bestEffortTasks htask hjob
  exact ⟨hreservation, hbest, hfree⟩

end PassState
end ClusterPlan
