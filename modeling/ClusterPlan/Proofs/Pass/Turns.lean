import ClusterPlan.Proofs.Pass.Replay

/-!
Every waiting job has one turn in a pass. All that is decided and committed about a job comes from its
turn, so what becomes of it can be told from one step.
-/

namespace ClusterPlan

/-- The waiting jobs are told apart by their ids, and no queue is listed twice. -/
structure Frame.HasTurns (f : Frame) : Prop where
  queues : f.config.queues.Nodup
  waiting : (f.waiting.map Job.id).Nodup

/-- The jobs of a frame are told apart by their ids, as a store has them, and the waiting ones are those
of the queues. -/
structure Frame.Tidy (f : Frame) : Prop where
  queues : f.config.queues.Nodup
  waits : ∀ job ∈ f.waiting, job.state = .waiting ∧ job.queue ∈ f.config.queues
  waiting : (f.waiting.map Job.id).Nodup
  active : ∀ job ∈ f.active, ∀ job' ∈ f.active, job.id = job'.id → job = job'
  apart : ∀ job ∈ f.waiting, ∀ job' ∈ f.active, job.id ≠ job'.id

/-- The waiting jobs have their turns, and none of them is active. -/
structure Frame.Parted (f : Frame) : Prop where
  turns : f.HasTurns
  apart : ∀ job ∈ f.waiting, ∀ job' ∈ f.active, job.id ≠ job'.id

/-- No granted reservation of the frame has passed. -/
def Frame.IsCurrent (f : Frame) : Prop :=
  ∀ row ∈ f.rows, ∀ a, f.reservedAssignment? row = some a → f.now ≤ a.last

namespace Frame

variable {f : Frame} {job : Job} {queue : Name .queue}

theorem Tidy.hasTurns (h : f.Tidy) : f.HasTurns := ⟨h.queues, h.waiting⟩

theorem Tidy.isParted (h : f.Tidy) : f.Parted := ⟨h.hasTurns, h.apart⟩

theorem HasTurns.eq_of_id_eq {job job' : Job} (h : f.HasTurns) (hjob : job ∈ f.waiting)
    (hjob' : job' ∈ f.waiting) (hid : job.id = job'.id) : job = job' :=
  List.inj_on_of_nodup_map h.waiting hjob hjob' hid

theorem reservedJob?_eq (halone : ∀ other ∈ f.waiting, other.id = job.id → other = job)
    (hjob : job ∈ f.waiting) (hflag : job.reservation = .scheduled) :
    f.reservedJob? job.id = some job := by
  cases hfind : f.reservedJob? job.id with
  | none =>
      have hnone := List.find?_eq_none.1 hfind job (List.mem_reverse.2 hjob)
      simp [hflag] at hnone
  | some k =>
      obtain ⟨hk, _, hid⟩ := mem_of_reservedJob? hfind
      rw [halone k hk hid]

theorem HasTurns.reservedJob?_eq (h : f.HasTurns) (hjob : job ∈ f.waiting)
    (hflag : job.reservation = .scheduled) : f.reservedJob? job.id = some job :=
  Frame.reservedJob?_eq (fun _ hother => h.eq_of_id_eq hother hjob) hjob hflag

theorem activeJob?_eq_none (h : ∀ job' ∈ f.active, job.id ≠ job'.id) :
    f.activeJob? job.id = none := by
  cases hfind : f.activeJob? job.id with
  | none => rfl
  | some k =>
      obtain ⟨hk, _, hid⟩ := mem_of_activeJob? hfind
      exact absurd hid.symm (h k hk)

/-- The row of a waiting job stands for its granted reservation. -/
theorem Parted.reservedAssignment?_eq {row : GanttRow} (h : f.Parted) (hjob : job ∈ f.waiting)
    (hstate : job.state = .waiting) (hflag : job.reservation = .scheduled) (hid : row.job = job.id) :
    f.reservedAssignment? row = some (f.rowAssignment row) := by
  refine reservedAssignment?_of_waiting (standing?_of_reserved ?_ ?_) hflag hstate
  · rw [hid]
    exact activeJob?_eq_none (h.apart job hjob)
  · rw [hid]
    exact h.turns.reservedJob?_eq hjob hflag

section Agenda

theorem nodup_queueJobs (h : f.HasTurns) : (f.queueJobs queue).Nodup := by
  rw [queueJobs, JobOrder.sort, (List.mergeSort_perm _ _).nodup_iff]
  exact h.waiting.of_map.filter _

/-- Lists of jobs, one for each queue. -/
theorem nodup_flatMap_queues {jobs : Name .queue → List Job} (h : f.HasTurns)
    (hnodup : ∀ queue, (jobs queue).Nodup)
    (hqueue : ∀ queue, ∀ job ∈ jobs queue, job.queue = queue) :
    (f.config.queues.flatMap jobs).Nodup := by
  rw [List.nodup_flatMap]
  refine ⟨fun queue _ => hnodup queue, h.queues.imp fun hne job hjob hjob' => ?_⟩
  exact hne ((hqueue _ job hjob).symm.trans (hqueue _ job hjob'))

theorem filterMap_job? (task : Job → Task) (htask : ∀ job, (task job).job? = some job)
    (jobs : List Job) : (jobs.map task).filterMap Task.job? = jobs := by
  rw [List.filterMap_map]
  simp [htask]

/-- The jobs of the agenda: granted reservations, new ones, regular jobs, best-effort jobs. -/
theorem jobs_agenda (f : Frame) :
    f.agenda.filterMap Task.job? =
      (f.config.queues.flatMap fun queue =>
        (f.queueJobs queue).filter fun j => j.reservation == .scheduled) ++
      (f.config.queues.flatMap fun queue => JobOrder.oldestFirst.sort
        ((f.queueJobs queue).filter fun j => j.reservation == .toSchedule)) ++
      (f.config.queues.flatMap fun queue => (f.queueJobs queue).filter fun j =>
        !j.isReservation && j.isBestEffort == false) ++
      f.config.queues.flatMap fun queue => (f.queueJobs queue).filter fun j =>
        !j.isReservation && j.isBestEffort == true := by
  have hnone : ∀ rest, List.filterMap Task.job? (.showBestEffort :: rest) =
      List.filterMap Task.job? rest := fun _ => rfl
  have hopen : ∀ rest, List.filterMap Task.job? (.openQueue :: rest) =
      List.filterMap Task.job? rest := fun _ => rfl
  simp only [agenda, List.filterMap_append, List.filterMap_flatMap, hnone, reviews, reserves,
    considers, hopen, filterMap_job? Task.review fun _ => rfl,
    filterMap_job? Task.reserve fun _ => rfl, filterMap_job? Task.consider fun _ => rfl]

theorem queue_of_agenda (h : task ∈ f.agenda) (hjob : task.job? = some job) :
    job.queue ∈ f.config.queues := by
  have hmem : job ∈ f.agenda.filterMap Task.job? := List.mem_filterMap.2 ⟨task, h, hjob⟩
  simp only [jobs_agenda, List.mem_append, List.mem_flatMap, mem_sort, List.mem_filter,
    mem_queueJobs] at hmem
  rcases hmem with ((⟨queue, hqueue, ⟨_, heq, _⟩, _⟩ | ⟨queue, hqueue, ⟨_, heq, _⟩, _⟩) |
    ⟨queue, hqueue, ⟨_, heq, _⟩, _⟩) | ⟨queue, hqueue, ⟨_, heq, _⟩, _⟩ <;>
  · rw [heq]
    exact hqueue

theorem nodup_jobs_agenda (h : f.HasTurns) : (f.agenda.filterMap Task.job?).Nodup := by
  have hmem : ∀ {p : Job → Bool} {queue job}, job ∈ (f.queueJobs queue).filter p →
      job.queue = queue ∧ p job = true := fun hjob =>
    ⟨(mem_queueJobs.1 (List.mem_filter.1 hjob).1).2.1, (List.mem_filter.1 hjob).2⟩
  have hpart : ∀ p : Job → Bool, (f.config.queues.flatMap fun queue =>
      (f.queueJobs queue).filter p).Nodup := fun p =>
    nodup_flatMap_queues h (fun _ => (nodup_queueJobs h).filter p) fun _ _ hjob => (hmem hjob).1
  have hreserves : (f.config.queues.flatMap fun queue => JobOrder.oldestFirst.sort
      ((f.queueJobs queue).filter fun j => j.reservation == .toSchedule)).Nodup := by
    refine nodup_flatMap_queues h (fun _ => ?_) fun _ job hjob => (hmem (mem_sort.1 hjob)).1
    rw [JobOrder.sort, (List.mergeSort_perm _ _).nodup_iff]
    exact (nodup_queueJobs h).filter _
  rw [jobs_agenda, List.nodup_append, List.nodup_append, List.nodup_append]
  -- The parts differ in the reservations of their jobs, the last two in their types.
  have hflag : ∀ {p : Job → Bool} {job}, job ∈ (f.config.queues.flatMap fun queue =>
      (f.queueJobs queue).filter p) → p job = true := fun hjob => by
    obtain ⟨_, _, hjob⟩ := List.mem_flatMap.1 hjob
    exact (hmem hjob).2
  have hflag' : ∀ {job}, job ∈ (f.config.queues.flatMap fun queue => JobOrder.oldestFirst.sort
      ((f.queueJobs queue).filter fun j => j.reservation == .toSchedule)) →
      (job.reservation == .toSchedule) = true := fun hjob => by
    obtain ⟨_, _, hjob⟩ := List.mem_flatMap.1 hjob
    exact (hmem (mem_sort.1 hjob)).2
  refine ⟨⟨⟨hpart _, hreserves, ?_⟩, hpart _, ?_⟩, hpart _, ?_⟩
  · rintro a ha _ hb rfl
    have hfirst := hflag ha
    have hsecond := hflag' hb
    simp_all
  · rintro a ha _ hb rfl
    have hthird := hflag hb
    rcases List.mem_append.1 ha with ha | ha
    · have hfirst := hflag ha
      simp_all [Job.isReservation]
    · have hsecond := hflag' ha
      simp_all [Job.isReservation]
  · rintro a ha _ hb rfl
    have hfourth := hflag hb
    rcases List.mem_append.1 ha with ha | ha
    · rcases List.mem_append.1 ha with ha | ha
      · have hfirst := hflag ha
        simp_all [Job.isReservation]
      · have hsecond := hflag' ha
        simp_all [Job.isReservation]
    · have hthird := hflag ha
      simp_all

theorem nodup_ids_agenda (h : f.HasTurns) : ((f.agenda.filterMap Task.job?).map Job.id).Nodup := by
  have hwaits : ∀ job ∈ f.agenda.filterMap Task.job?, job ∈ f.waiting := by
    intro job hjob
    obtain ⟨task, htask, hjob⟩ := List.mem_filterMap.1 hjob
    exact (job_of_agenda htask hjob).1
  exact (nodup_jobs_agenda h).map_on fun job hjob job' hjob' =>
    h.eq_of_id_eq (hwaits job hjob) (hwaits job' hjob')

theorem exists_task (hjob : job ∈ f.waiting) (hstate : job.state = .waiting)
    (hqueue : job.queue ∈ f.config.queues) : ∃ task ∈ f.agenda, task.job? = some job := by
  have hqueued : job ∈ f.queueJobs job.queue := mem_queueJobs.2 ⟨hjob, rfl, hstate⟩
  simp only [agenda, List.mem_append, List.mem_cons, List.mem_flatMap]
  cases hflag : job.reservation with
  | scheduled =>
      exact ⟨.review job, Or.inl (Or.inl (Or.inl
        ⟨_, hqueue, mem_reviews.2 ⟨job, hqueued, hflag, rfl⟩⟩)), rfl⟩
  | toSchedule =>
      exact ⟨.reserve job, Or.inl (Or.inl (Or.inr
        ⟨_, hqueue, mem_reserves.2 ⟨job, hqueued, hflag, rfl⟩⟩)), rfl⟩
  | none =>
      have hplain : job.isReservation = false := by rw [Job.isReservation, hflag]; rfl
      refine ⟨.consider job, ?_, rfl⟩
      cases hbest : job.isBestEffort with
      | false =>
          exact Or.inl (Or.inr ⟨_, hqueue, mem_considers.2 (Or.inr ⟨job, hqueued, hplain, hbest, rfl⟩)⟩)
      | true =>
          exact Or.inr (Or.inr ⟨_, hqueue, mem_considers.2 (Or.inr ⟨job, hqueued, hplain, hbest, rfl⟩)⟩)

/-- Nothing before and nothing after the turn of a job is about it. -/
theorem id_ne_of_agenda {front back : List Task} {task : Task} (h : f.HasTurns)
    (hagenda : f.agenda = front ++ task :: back) (hjob : task.job? = some job) :
    ∀ task' ∈ front ++ back, ∀ job', task'.job? = some job' → job'.id ≠ job.id := by
  have hnodup := nodup_ids_agenda h
  rw [hagenda, List.filterMap_append, List.filterMap_cons_some hjob, List.map_append, List.map_cons,
    List.nodup_middle, List.nodup_cons, ← List.map_append, ← List.filterMap_append] at hnodup
  intro task' htask' job' hjob' hid
  exact hnodup.1 (List.mem_map.2 ⟨job', List.mem_filterMap.2 ⟨task', htask', hjob'⟩, hid⟩)

end Agenda

end Frame

namespace PassState

variable {f : Frame} {m : Matcher} {s s' : PassState} {job : Job} {task : Task} {a : Assignment}
  {added : List Commitment} {decided : List Decision}

/-- What comes of the turn of a waiting job, by what it has reserved before. -/
inductive Verdict (f : Frame) (job : Job) (reserved : Option Assignment) :
    List Commitment → List Decision → Prop where
  /-- A granted reservation is left alone, waits or is launched. -/
  | stands {decided : List Decision} : reserved ≠ none → job.reservation = .scheduled →
      decided.length ≤ 1 →
      (∀ d ∈ decided, d.state = .waiting ∧ d.reservation = .scheduled ∨ d.state = .toLaunch) →
      Verdict f job reserved [] decided
  | waits {d : Decision} : job.reservation = .none → d.state = .waiting → d.reservation = .none →
      Verdict f job reserved [] [d]
  | fails {d : Decision} : reserved = none → d.state = .error → Verdict f job reserved [] [d]
  /-- The job may start later, or once others are killed. -/
  | plans {c : Commitment} {d : Decision} : job.reservation = .none → c.job = job →
      d.state = .waiting → d.reservation = .none →
      (c.placement.assignment.start = f.now → job.isBestEffort = false) →
      Verdict f job reserved [c] [d]
  | launches {c : Commitment} {d : Decision} : job.reservation = .none → c.job = job →
      c.placement.assignment.start = f.now → d.state = .toLaunch → d.reservation = .none →
      Verdict f job reserved [c] [d]
  | grants {c : Commitment} {d : Decision} : job.reservation ≠ .none → reserved = none →
      c.job = job → f.now ≤ c.placement.assignment.start → d.state = .waiting →
      d.reservation = .scheduled → Verdict f job reserved [c] [d]

/-- The step adds what a verdict on the job says. -/
def Judges (f : Frame) (s s' : PassState) (job : Job) : Prop :=
  ∃ added decided, s'.commitments = s.commitments ++ added ∧
    s'.decisions = s.decisions ++ decided ∧
    Verdict f job (s.reservations.get? job.id) added decided

section Judges

/-- A step that only decides about the job. -/
theorem judges_of_decided {d : Decision} (hcommitments : s'.commitments = s.commitments)
    (hdecisions : s'.decisions = s.decisions ++ [d])
    (h : Verdict f job (s.reservations.get? job.id) [] [d]) : Judges f s s' job :=
  ⟨[], [d], hcommitments.trans (List.append_nil _).symm, hdecisions, h⟩

theorem judges_of_refused {note : Note} (hnone : s.reservations.get? job.id = none)
    (hs : Alike (s.refuse job note) s') : Judges f s s' job :=
  judges_of_decided hs.commitments hs.decisions (.fails hnone rfl)

theorem judges_of_granted {c : Candidate} {start : Int} {resources : OrdinalSet} {note : Note}
    (hflag : job.reservation ≠ .none) (hnone : s.reservations.get? job.id = none)
    (hnow : f.now ≤ start) (hs : Alike ((s.booked f job c start resources).decide job .scheduled
      .waiting .scheduled note) s') : Judges f s s' job := by
  obtain ⟨_, _, hbooked⟩ := booked_eq s f job c start resources
  have hdecisions := hs.decisions
  rw [hbooked] at hdecisions
  exact ⟨_, _, hs.commitments, hdecisions, .grants hflag hnone rfl hnow rfl rfl⟩

/-- A granted reservation that has not passed is left alone, waits or is launched. -/
theorem Step.judges_review (h : Step f s s' (.review job)) (hflag : job.reservation = .scheduled)
    (hcurrent : ∀ a, s.reservations.get? job.id = some a → f.now ≤ a.last) :
    Judges f s s' job := by
  have hstands : ∀ {d : Decision}, s.reservations.get? job.id ≠ none →
      d.state = .waiting ∧ d.reservation = .scheduled ∨ d.state = .toLaunch →
      Verdict f job (s.reservations.get? job.id) [] [d] := fun hsome hd =>
    .stands hsome hflag (le_refl _) (List.forall_mem_singleton.2 hd)
  cases h with
  | ahead ha _ hs =>
      refine ⟨[], [], ?_, ?_, .stands (ha ▸ Option.some_ne_none _) hflag (Nat.zero_le _)
        (List.forall_mem_nil _)⟩
      · rw [hs.commitments, List.append_nil]
      · rw [hs.decisions, List.append_nil]
  | expired ha _ hlast _ => exact absurd (hcurrent _ ha) (not_le.2 hlast)
  | delayed ha _ _ _ hs | awaited ha _ _ _ _ hs =>
      exact judges_of_decided hs.commitments hs.decisions
        (hstands (ha ▸ Option.some_ne_none _) (Or.inl ⟨rfl, rfl⟩))
  | started ha _ _ _ _ hs =>
      exact judges_of_decided hs.commitments hs.decisions
        (hstands (ha ▸ Option.some_ne_none _) (Or.inr rfl))
  | refused htask hs =>
      cases Option.some.inj (job?_of_reserves htask)
      exact judges_of_refused (unreserved_of_reserves htask rfl) hs
  | granted htask _ hnow _ hs =>
      cases Option.some.inj (job?_of_reserves htask)
      exact judges_of_granted (by rw [hflag]; nofun) (unreserved_of_reserves htask rfl) hnow hs

theorem Step.judges_reserve (h : Step f s s' (.reserve job)) (hflag : job.reservation ≠ .none)
    (hnone : s.reservations.get? job.id = none) : Judges f s s' job := by
  cases h with
  | refused htask hs =>
      cases Option.some.inj (job?_of_reserves htask)
      exact judges_of_refused hnone hs
  | granted htask _ hnow _ hs =>
      cases Option.some.inj (job?_of_reserves htask)
      exact judges_of_granted hflag hnone hnow hs

theorem Step.judges_consider (h : Step f s s' (.consider job)) (hflag : job.reservation = .none)
    (hnone : s.reservations.get? job.id = none) : Judges f s s' job := by
  cases h with
  | refused htask | granted htask => rcases htask with htask | ⟨htask, _⟩ <;> cases htask
  | kept hs => exact judges_of_decided hs.commitments hs.decisions (.waits hflag rfl rfl)
  | rejected hs => exact judges_of_decided hs.commitments hs.decisions (.fails hnone rfl)
  | @planned _ c start resources hahead _ hs =>
      obtain ⟨_, _, hbooked⟩ := booked_eq s f job c start resources
      have hdecisions := hs.decisions
      rw [hbooked] at hdecisions
      exact ⟨_, _, hs.commitments, hdecisions,
        .plans hflag rfl rfl rfl fun hstart => absurd hstart hahead.ne'⟩
  | @launched _ c resources _ hs =>
      obtain ⟨_, _, hbooked⟩ := booked_eq s f job c f.now resources
      obtain ⟨d, hd, hnow⟩ := decisions_launch (s.booked f job c f.now resources) job c resources
      have hdecisions := hs.decisions.trans hd
      rw [hbooked] at hdecisions
      refine ⟨_, _, hs.commitments.trans (launch_books ..).1, hdecisions, ?_⟩
      rcases hnow.state with hstate | ⟨hstate, hregular⟩
      · exact .launches hflag rfl rfl hstate hnow.reservation
      · exact .plans hflag rfl hstate hnow.reservation fun _ => hregular

/-- The turn of a job adds a verdict on it. -/
theorem Step.judges (h : Step f s s' task)
    (hflag : task = .review job ∧ job.reservation = .scheduled ∨
      task = .reserve job ∧ job.reservation = .toSchedule ∨
      task = .consider job ∧ job.isReservation = false)
    (hreserved : s.reservations.get? job.id ≠ none → job.reservation = .scheduled)
    (hcurrent : ∀ a, s.reservations.get? job.id = some a → f.now ≤ a.last) :
    Judges f s s' job := by
  have hnone : job.reservation ≠ .scheduled → s.reservations.get? job.id = none := fun hother =>
    by_contra fun hsome => hother (hreserved hsome)
  rcases hflag with ⟨rfl, hflag⟩ | ⟨rfl, hflag⟩ | ⟨rfl, hplain⟩
  · exact h.judges_review hflag hcurrent
  · exact h.judges_reserve (by rw [hflag]; decide) (hnone (by rw [hflag]; decide))
  · have hflag : job.reservation = .none := by simpa [Job.isReservation] using hplain
    exact h.judges_consider hflag (hnone (by rw [hflag]; decide))

end Judges

section Runs

/-- Whatever a run decides is about the job of a task, and says whether that job changes. -/
theorem new_decision_of_run (f : Frame) (tasks : List Task) (s : PassState) :
    ∃ new, (tasks.foldl (perform f) s).decisions = s.decisions ++ new ∧
      ∀ d ∈ new, ∃ task ∈ tasks, ∃ job, task.job? = some job ∧ d.job = job.id ∧
        d.changed = (d.state != job.state || d.reservation != job.reservation) := by
  induction tasks generalizing s with
  | nil => exact ⟨[], by simp⟩
  | cons task rest ih =>
      obtain ⟨new, hnew, hall⟩ := ih (perform f s task)
      have hrest : ∀ d ∈ new, ∃ task' ∈ task :: rest, ∃ job, task'.job? = some job ∧ d.job = job.id ∧
          d.changed = (d.state != job.state || d.reservation != job.reservation) := by
        intro d hd
        obtain ⟨task', htask', h⟩ := hall d hd
        exact ⟨task', List.mem_cons_of_mem _ htask', h⟩
      rcases (perform_step f s task).decisions with hsame | ⟨job, d, hd, _⟩
      · exact ⟨new, by rw [List.foldl_cons, hnew, hsame], hrest⟩
      · refine ⟨d :: new, ?_, List.forall_mem_cons.2 ⟨?_, hrest⟩⟩
        · rw [List.foldl_cons, hnew, hd.decisions, List.append_assoc, List.singleton_append]
        · exact ⟨task, List.mem_cons_self, job, hd.isAbout, hd.id, hd.changed⟩

/-- Tasks that are about no job commit and decide nothing. -/
theorem outcome_of_no_job {tasks : List Task} (htasks : ∀ task ∈ tasks, task.job? = none)
    (hs : s.timeline.WellFormed) :
    (tasks.foldl (perform f) s).commitments = s.commitments ∧
      (tasks.foldl (perform f) s).decisions = s.decisions := by
  obtain ⟨added, hadded, hcommitted⟩ := new_commitment_of_run f tasks s hs
  obtain ⟨decided, hdecided, habout⟩ := new_decision_of_run f tasks s
  have hadds : added = [] := List.eq_nil_iff_forall_not_mem.2 fun c hc => by
    obtain ⟨⟨task, htask, hjob⟩, _⟩ := hcommitted c hc
    rw [htasks task htask] at hjob
    cases hjob
  have hdecides : decided = [] := List.eq_nil_iff_forall_not_mem.2 fun d hd => by
    obtain ⟨task, htask, job, hjob, _⟩ := habout d hd
    rw [htasks task htask] at hjob
    cases hjob
  rw [hadded, hdecided, hadds, hdecides, List.append_nil, List.append_nil]
  exact ⟨rfl, rfl⟩

/-- As long as no reservation has passed, a task commits or leaves all placements alone. -/
theorem Step.cases_current (h : Step f s s' task) (hcurrent : f.IsCurrent)
    (hs : s.reservations = (start f m).reservations) :
    (∃ c, Commits f s s' task c) ∨ Keeps s s' := by
  rcases h.cases_placements with hc | ⟨j, a, hexpires⟩ | hkeeps
  · exact Or.inl hc
  · have hreserved := hexpires.reserved
    rw [hs] at hreserved
    obtain ⟨row, hrow, _, ha⟩ := ((loaded_start f m).reservations _ _).1 hreserved
    exact absurd (hcurrent row hrow a ha) (not_le.2 hexpires.passed)
  · exact Or.inr hkeeps

theorem Step.reservations_eq (h : Step f s s' task) (hcurrent : f.IsCurrent)
    (hs : s.reservations = (start f m).reservations) : s'.reservations = (start f m).reservations := by
  rcases h.cases_current hcurrent hs with ⟨c, hc⟩ | hkeeps
  · exact hc.reservations.trans hs
  · exact hkeeps.reservations.trans hs

theorem reservations_run (hcurrent : f.IsCurrent) (tasks : List Task)
    (hs : s.reservations = (start f m).reservations) :
    (tasks.foldl (perform f) s).reservations = (start f m).reservations := by
  induction tasks generalizing s with
  | nil => exact hs
  | cons task rest ih => exact ih ((perform_step f s task).reservations_eq hcurrent hs)

theorem scheduled_of_reserved (h : f.HasTurns) (hjob : job ∈ f.waiting)
    (hsome : (start f m).reservations.get? job.id ≠ none) : job.reservation = .scheduled := by
  obtain ⟨a, ha⟩ := Option.ne_none_iff_exists'.1 hsome
  obtain ⟨row, _, hid, hreserved⟩ := ((loaded_start f m).reservations _ _).1 ha
  obtain ⟨_, _, ⟨j, hj⟩, _⟩ := Frame.standing?_of_reservedAssignment? hreserved
  obtain ⟨hwaits, hflag, hjid⟩ := Frame.mem_of_reservedJob? hj
  rw [← h.eq_of_id_eq hwaits hjob (hjid.trans hid)]
  exact hflag

section Turn

variable {front back : List Task} (h : f.HasTurns) (hagenda : f.agenda = front ++ task :: back)
  (hjob : task.job? = some job)
include h hagenda hjob

/-- What is committed for a job comes from its turn. -/
theorem commitments_of_turn
    (hadded : (perform f (front.foldl (perform f) (start f m)) task).commitments =
      (front.foldl (perform f) (start f m)).commitments ++ added) :
    (finished f m).commitments.filter (fun c => c.job.id == job.id) = added := by
  have hother := Frame.id_ne_of_agenda h hagenda hjob
  have hloaded := loaded_start f m
  have hwell := (books_run f front (start f m) (books_start f m)).wellFormed
  obtain ⟨before, hbefore, hallBefore⟩ :=
    new_commitment_of_run f front (start f m) hloaded.wellFormed
  obtain ⟨added', hadded', hall⟩ := new_commitment_of_run f [task] _ hwell
  obtain ⟨after, hafter, hallAfter⟩ :=
    new_commitment_of_run f back _ ((perform_step f _ task).wellFormed hwell)
  obtain rfl : added = added' := List.append_cancel_left (hadded.symm.trans hadded')
  rw [finished, hagenda, List.foldl_append, List.foldl_cons, hafter, hadded, hbefore,
    hloaded.commitments, List.nil_append]
  apply filter_middle
  · intro c hc
    obtain ⟨⟨t, ht, hc⟩, _⟩ := hallBefore c hc
    exact beq_false_of_ne (hother t (List.mem_append_left _ ht) c.job hc)
  · intro c hc
    obtain ⟨⟨t, ht, hc⟩, _⟩ := hall c hc
    rw [List.mem_singleton.1 ht, hjob, Option.some.injEq] at hc
    rw [hc]
    exact beq_self_eq_true _
  · intro c hc
    obtain ⟨⟨t, ht, hc⟩, _⟩ := hallAfter c hc
    exact beq_false_of_ne (hother t (List.mem_append_right _ ht) c.job hc)

/-- What is decided about a job comes from its turn. -/
theorem decisions_of_turn
    (hdecided : (perform f (front.foldl (perform f) (start f m)) task).decisions =
      (front.foldl (perform f) (start f m)).decisions ++ decided) :
    (finished f m).decisions.filter (fun d => d.job == job.id) = decided := by
  have hother := Frame.id_ne_of_agenda h hagenda hjob
  obtain ⟨before, hbefore, hallBefore⟩ := new_decision_of_run f front (start f m)
  obtain ⟨decided', hdecided', hall⟩ :=
    new_decision_of_run f [task] (front.foldl (perform f) (start f m))
  obtain ⟨after, hafter, hallAfter⟩ :=
    new_decision_of_run f back (perform f (front.foldl (perform f) (start f m)) task)
  obtain rfl : decided = decided' := List.append_cancel_left (hdecided.symm.trans hdecided')
  rw [finished, hagenda, List.foldl_append, List.foldl_cons, hafter, hdecided, hbefore,
    (loaded_start f m).decisions, List.nil_append]
  apply filter_middle
  · intro d hd
    obtain ⟨t, ht, j, hj, hid, _⟩ := hallBefore d hd
    exact beq_false_of_ne (hid ▸ hother t (List.mem_append_left _ ht) j hj)
  · intro d hd
    obtain ⟨t, ht, j, hj, hid, _⟩ := hall d hd
    rw [List.mem_singleton.1 ht, hjob, Option.some.injEq] at hj
    rw [hid, hj]
    exact beq_self_eq_true _
  · intro d hd
    obtain ⟨t, ht, j, hj, hid, _⟩ := hallAfter d hd
    exact beq_false_of_ne (hid ▸ hother t (List.mem_append_right _ ht) j hj)

end Turn

/-- What other jobs do leaves a granted reservation alone. -/
theorem reservations_get?_run {id : Int} (tasks : List Task)
    (htasks : ∀ task ∈ tasks, ∀ job, task.job? = some job → job.id ≠ id) (s : PassState) :
    (tasks.foldl (perform f) s).reservations.get? id = s.reservations.get? id := by
  induction tasks generalizing s with
  | nil => rfl
  | cons task rest ih =>
      obtain ⟨htask, hrest⟩ := List.forall_mem_cons.1 htasks
      rw [List.foldl_cons, ih hrest]
      rcases (perform_step f s task).reservations_get? id with hsame | ⟨j, a, hexpires, hid⟩
      · exact hsame
      · exact absurd hid (htask j (by rw [hexpires.isReview]; rfl))

/-- At its turn a job has reserved what it had when the pass began. -/
theorem reservations_of_turn {front back : List Task} (h : f.HasTurns)
    (hagenda : f.agenda = front ++ task :: back) (hjob : task.job? = some job) :
    (front.foldl (perform f) (start f m)).reservations.get? job.id =
      (start f m).reservations.get? job.id :=
  reservations_get?_run front (fun task' htask' =>
    Frame.id_ne_of_agenda h hagenda hjob task' (List.mem_append_left _ htask')) _

theorem nodup_ids_commitments (h : f.HasTurns) (m : Matcher) :
    ((finished f m).commitments.map fun c => c.job.id).Nodup := by
  refine nodup_map_of_length_le_one fun c hc => ?_
  obtain ⟨front, task, back, hagenda, hcommits⟩ := task_of_committed hc
  rw [commitments_of_turn h hagenda hcommits.job hcommits.commitments]
  exact le_refl _

/-- Every decision is about a waiting job of a queue, and tells whether it changes. -/
theorem job_of_decision {d : Decision} (hd : d ∈ (finished f m).decisions) :
    ∃ job ∈ f.waiting, d.job = job.id ∧
      d.changed = (d.state != job.state || d.reservation != job.reservation) ∧
      job.state = .waiting ∧ job.queue ∈ f.config.queues := by
  obtain ⟨new, hnew, hall⟩ := new_decision_of_run f f.agenda (start f m)
  rw [finished, hnew, (loaded_start f m).decisions, List.nil_append] at hd
  obtain ⟨task, htask, job, hjob, hid, hchanged⟩ := hall d hd
  obtain ⟨hwaits, hstate, _⟩ := Frame.job_of_agenda htask hjob
  exact ⟨job, hwaits, hid, hchanged, hstate, Frame.queue_of_agenda htask hjob⟩

/-- No two decisions are about one job. -/
theorem nodup_ids_decisions (h : f.HasTurns) (m : Matcher) :
    ((finished f m).decisions.map Decision.job).Nodup := by
  refine nodup_map_of_length_le_one fun d hd => ?_
  obtain ⟨new, hnew, hall⟩ := new_decision_of_run f f.agenda (start f m)
  rw [finished, hnew, (loaded_start f m).decisions, List.nil_append] at hd
  obtain ⟨task, htask, job, hjob, hid, _⟩ := hall d hd
  obtain ⟨front, back, hagenda⟩ := List.append_of_mem htask
  rw [hid]
  rcases (perform_step f (front.foldl (perform f) (start f m)) task).decisions with
    hsame | ⟨_, d', hdecides, _⟩
  · rw [decisions_of_turn h hagenda hjob (hsame.trans (List.append_nil _).symm)]
    exact Nat.zero_le _
  · rw [decisions_of_turn h hagenda hjob hdecides.decisions]
    exact le_refl _

/-- What is committed for a waiting job and decided about it is what its turn comes to. -/
theorem verdict_of_waiting (h : f.Tidy) (hcurrent : f.IsCurrent) (m : Matcher)
    (hjob : job ∈ f.waiting) :
    Verdict f job ((start f m).reservations.get? job.id)
      ((finished f m).commitments.filter fun c => c.job.id == job.id)
      ((finished f m).decisions.filter fun d => d.job == job.id) := by
  have hturns := h.hasTurns
  obtain ⟨hstate, hqueue⟩ := h.waits job hjob
  obtain ⟨task, htask, hisAbout⟩ := Frame.exists_task hjob hstate hqueue
  obtain ⟨front, back, hagenda⟩ := List.append_of_mem htask
  have hreservations := reservations_run (m := m) hcurrent front rfl
  obtain ⟨added, decided, hadded, hdecided, hverdict⟩ :=
    (perform_step f (front.foldl (perform f) (start f m)) task).judges
      (Frame.job_of_agenda htask hisAbout).2.2
      (fun hsome => scheduled_of_reserved hturns hjob (hreservations ▸ hsome)) fun a ha => by
        rw [hreservations] at ha
        obtain ⟨row, hrow, _, hreserved⟩ := ((loaded_start f m).reservations _ _).1 ha
        exact hcurrent row hrow a hreserved
  rw [commitments_of_turn hturns hagenda hisAbout hadded,
    decisions_of_turn hturns hagenda hisAbout hdecided, ← hreservations]
  exact hverdict

end Runs

end PassState

end ClusterPlan
