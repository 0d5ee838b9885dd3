import ClusterPlan.Proofs.Pass.Exclusion
import Mathlib.Data.List.Pairwise

/-!
Which jobs a pass launches. A launch is a due reservation or a commitment at the present second. Launched
jobs share no resource with each other or with active jobs, except that a due reservation may meet
an active job that overruns.
-/

namespace ClusterPlan

namespace Frame

variable {f : Frame} {row row' : GanttRow} {job : Job} {t : Int}

/-- Whether the pass reads the row as one of a regular active job or of a granted reservation. -/
def IsLoaded (f : Frame) (row : GanttRow) : Prop :=
  (∃ job, f.activeJob? row.job = some job ∧ job.isBestEffort = false) ∨
    f.activeJob? row.job = none ∧ ∃ job, f.reservedJob? row.job = some job

/-- Rows as earlier passes leave them, with jobs that are told apart by their ids. -/
structure Consistent (f : Frame) : Prop where
  begun : ∀ row ∈ f.rows, ∀ job, f.activeJob? row.job = some job → row.start ≤ f.now
  apart : ∀ row ∈ f.rows, ∀ row' ∈ f.rows, row.job ≠ row'.job → f.IsLoaded row →
    f.IsLoaded row' → ∀ o ∈ f.rowOrdinals row, o ∈ f.rowOrdinals row' →
    ∀ t, row.start ≤ t → t ≤ f.heldUntil row.start row.walltime →
    ¬ (row'.start ≤ t ∧ t ≤ f.heldUntil row'.start row'.walltime)
  distinct : ∀ job ∈ f.waiting, ∀ job' ∈ f.active, job.id ≠ job'.id

/-- A granted reservation whose time has come and which nothing delays. -/
structure IsDue (f : Frame) (row : GanttRow) : Prop where
  reserved : f.reservedAssignment? row = some (f.rowAssignment row)
  reviewed : ∃ queue ∈ f.config.queues, ∃ job ∈ f.queueJobs queue,
    job.reservation = .scheduled ∧ job.id = row.job
  begun : row.start ≤ f.now
  lasts : f.now ≤ row.last
  alive : (f.rowOrdinals row).subset (f.catalog.inState .alive) = true
  clear : ∀ row' ∈ f.rows, ∀ e, f.aside? row' = some e → OrdinalSet.Disjoint (f.rowOrdinals row) e.2

/-- A regular active job whose held window is over. -/
def Overruns (f : Frame) (row : GanttRow) : Prop :=
  (∃ job, f.activeJob? row.job = some job ∧ job.isBestEffort = false) ∧
    f.heldUntil row.start row.walltime < f.now

theorem last_le_heldUntil (f : Frame) (row : GanttRow) :
    row.last ≤ f.heldUntil row.start row.walltime := by
  have hsecurity : 0 ≤ f.security := by
    rw [security]
    omega
  simp only [GanttRow.last, heldUntil, Time.windowEnd, Time.later]
  omega

theorem standing?_of_reservedAssignment? {a : Assignment} (h : f.reservedAssignment? row = some a) :
    a = f.rowAssignment row ∧ f.activeJob? row.job = none ∧
      (∃ job, f.reservedJob? row.job = some job) ∧
      f.occupiedUntil? row = some (f.heldUntil row.start row.walltime) ∧
      f.standingPlacement? row =
        some ⟨f.heldUntil row.start row.walltime, f.rowAssignment row⟩ := by
  simp only [reservedAssignment?, Option.bind_eq_some_iff] at h
  obtain ⟨⟨job, last⟩, hstanding, h⟩ := h
  split at h
  · rename_i hflag
    simp only [Bool.and_eq_true, beq_iff_eq, Bool.not_eq_true'] at hflag
    rcases standing?_cases hstanding with ⟨hactive, _⟩ | ⟨hactive, hreserved, rfl⟩
    · rw [(mem_of_activeJob? hactive).2.1] at hflag
      cases hflag.2
    · refine ⟨(Option.some.inj h).symm, hactive, ⟨job, hreserved⟩, ?_, ?_⟩
      · rw [occupiedUntil?, hstanding, Option.bind_some, keepsAside, hflag.2, Bool.and_false]
        rfl
      · rw [standingPlacement?, hstanding, Option.map_some]
  · cases h

theorem aside?_of_active (hactive : f.activeJob? row.job = some job)
    (hbest : job.isBestEffort = true) : f.aside? row = some (row.job, f.rowOrdinals row) := by
  rw [aside?, standing?_of_active hactive, Option.bind_some, keepsAside, hbest,
    (mem_of_activeJob? hactive).2.1]
  rfl

end Frame

namespace PassState

variable {f : Frame} {m : Matcher} {s s' : PassState} {task : Task} {d : Decision} {id : Int}
  {a : Assignment}

section Decisions

/-- Nobody of those kept aside is on the resources. -/
def IsClear (s : PassState) (resources : OrdinalSet) : Prop :=
  ∀ e ∈ s.bestEffort, OrdinalSet.Disjoint resources e.2

theorem isClear_iff {resources : OrdinalSet} :
    (s.evict resources).2 = [] ↔ s.IsClear resources := by
  simp only [evict, List.map_eq_nil_iff, List.filter_eq_nil_iff, Bool.not_eq_true',
    Bool.not_eq_false, OrdinalSet.isEmpty_iff, OrdinalSet.mem_inter, IsClear, OrdinalSet.Disjoint]
  constructor
  · intro h e he o ho hoe
    exact h e he o ⟨hoe, ho⟩
  · intro h e he o ho
    exact h e he o ho.2 ho.1

/-- How a task comes to launch a job. -/
inductive Launch (f : Frame) (s s' : PassState) (d : Decision) : Task → Prop where
  | due {job : Job} {a : Assignment} : d.job = job.id → s.reservations.get? job.id = some a →
      a.start ≤ f.now → f.now ≤ a.last → a.resources.subset (f.catalog.inState .alive) = true →
      s.IsClear a.resources →
      d.assignment = (s.placements.get? job.id).map Placement.assignment →
      Launch f s s' d (.review job)
  | placed {c : Commitment} : d.job = c.job.id → Commits f s s' (.consider c.job) c →
      c.placement.assignment.start = f.now → d.assignment = some c.placement.assignment →
      (c.job.isBestEffort = true ∨ s.IsClear c.placement.assignment.resources) →
      Launch f s s' d (.consider c.job)

/-- What a task decides about its job. -/
structure Decides (s s' : PassState) (task : Task) (job : Job) (d : Decision) : Prop where
  decisions : s'.decisions = s.decisions ++ [d]
  isAbout : task.job? = some job
  id : d.job = job.id
  changed : d.changed = (d.state != job.state || d.reservation != job.reservation)
  /-- A granted reservation is launched or given up, or it waits on. -/
  reviewed : task = .review job → s.reservations.get? job.id ≠ none →
    d.outcome = .toLaunch ∨ d.outcome = .error ∨ d.state = .waiting ∧ d.reservation = .scheduled

/-- What is decided about a job that is placed at the present second. -/
structure DecidedNow (s : PassState) (job : Job) (resources : OrdinalSet) (d : Decision) : Prop where
  id : d.job = job.id
  state : d.state = .toLaunch ∨ d.state = .waiting ∧ job.isBestEffort = false
  reservation : d.reservation = .none
  changed : d.changed = (d.state != job.state || d.reservation != job.reservation)
  assignment : d.assignment = (s.placements.get? job.id).map Placement.assignment
  clear : d.outcome = .toLaunch → job.isBestEffort = true ∨ s.IsClear resources

theorem decisions_launch (s : PassState) (job : Job) (c : Candidate) (resources : OrdinalSet) :
    ∃ d, (s.launch job c resources).decisions = s.decisions ++ [d] ∧
      DecidedNow s job resources d := by
  simp only [launch]
  cases hbest : job.isBestEffort with
  | true => exact ⟨_, rfl, rfl, Or.inl rfl, rfl, rfl, rfl, fun _ => Or.inl hbest⟩
  | false =>
      simp only [Bool.false_eq_true, if_false]
      split
      · rename_i hblockers
        rw [List.isEmpty_iff] at hblockers
        exact ⟨_, rfl, rfl, Or.inl rfl, rfl, rfl, rfl, fun _ => Or.inr (isClear_iff.1 hblockers)⟩
      · exact ⟨_, rfl, rfl, Or.inr ⟨rfl, hbest⟩, rfl, rfl, rfl, fun houtcome => by cases houtcome⟩

theorem decides_of_reserves {job : Job} {d : Decision} (htask : task.Reserves s job)
    (hdecisions : s'.decisions = s.decisions ++ [d]) (hjob : d.job = job.id)
    (hchanged : d.changed = (d.state != job.state || d.reservation != job.reservation)) :
    Decides s s' task job d :=
  ⟨hdecisions, job?_of_reserves htask, hjob, hchanged,
    fun hreview hget => absurd (unreserved_of_reserves htask hreview) hget⟩

/-- A task decides about nothing or about its job. -/
theorem Step.decisions (h : Step f s s' task) :
    s'.decisions = s.decisions ∨
      ∃ job d, Decides s s' task job d ∧ (d.outcome = .toLaunch → Launch f s s' d task) := by
  cases h with
  | opened hs | shown hs | ahead _ _ hs => exact Or.inl hs.decisions
  | expired _ _ _ hs =>
      exact Or.inr ⟨_, _, ⟨hs.decisions, rfl, rfl, rfl, fun _ _ => Or.inr (Or.inl rfl)⟩, nofun⟩
  | delayed _ _ _ _ hs | awaited _ _ _ _ _ hs =>
      refine Or.inr ⟨_, _, ⟨hs.decisions, rfl, rfl, rfl, fun _ _ => ?_⟩, nofun⟩
      exact Or.inr (Or.inr ⟨rfl, rfl⟩)
  | @started job a ha hdue hlast halive hblockers hs =>
      refine Or.inr ⟨_, _, ⟨hs.decisions, rfl, rfl, rfl, fun _ _ => Or.inl rfl⟩, fun _ => ?_⟩
      exact .due rfl ha hdue hlast halive (isClear_iff.1 hblockers) rfl
  | refused htask hs =>
      exact Or.inr ⟨_, _, decides_of_reserves htask hs.decisions rfl rfl, nofun⟩
  | kept hs | rejected hs =>
      exact Or.inr ⟨_, _, ⟨hs.decisions, rfl, rfl, rfl, nofun⟩, nofun⟩
  | @granted _ job a start resources htask _ _ _ hs =>
      obtain ⟨ledger, claims, hbooked⟩ := booked_eq s f job a start resources
      have hdecisions := hs.decisions
      rw [hbooked] at hdecisions
      exact Or.inr ⟨_, _, decides_of_reserves htask hdecisions rfl rfl, nofun⟩
  | @planned job a start resources _ _ hs =>
      obtain ⟨ledger, claims, hbooked⟩ := booked_eq s f job a start resources
      have hdecisions := hs.decisions
      rw [hbooked] at hdecisions
      exact Or.inr ⟨_, _, ⟨hdecisions, rfl, rfl, rfl, nofun⟩, nofun⟩
  | @launched job a resources hfinds hs =>
      have hcommits := commits_of_launched hfinds hs
      obtain ⟨d, hd, hdecided⟩ :=
        decisions_launch (s.booked f job a f.now resources) job a resources
      obtain ⟨ledger, claims, hbooked⟩ := booked_eq s f job a f.now resources
      have hdecisions := hs.decisions.trans hd
      have hassignment := hdecided.assignment
      have hclear := hdecided.clear
      rw [hbooked] at hdecisions hassignment hclear
      rw [Dictionary.get?_put, if_pos rfl, Option.map_some] at hassignment
      refine Or.inr ⟨job, d, ⟨hdecisions, rfl, hdecided.id, hdecided.changed, nofun⟩,
        fun hlaunch => ?_⟩
      exact .placed hdecided.id hcommits rfl hassignment (hclear hlaunch)

/-- Every launch of a run is that of one of its tasks. -/
theorem launch_of_run (tasks : List Task) (s : PassState)
    (hd : d ∈ (tasks.foldl (perform f) s).decisions) (hold : d ∉ s.decisions)
    (hlaunch : d.outcome = .toLaunch) :
    ∃ front task back, tasks = front ++ task :: back ∧
      Launch f (front.foldl (perform f) s) (perform f (front.foldl (perform f) s) task) d task := by
  induction tasks generalizing s with
  | nil => exact absurd hd hold
  | cons task rest ih =>
      by_cases hnew : d ∈ (perform f s task).decisions
      · refine ⟨[], task, rest, rfl, ?_⟩
        rcases (perform_step f s task).decisions with hsame | ⟨_, d', hd', hlaunch'⟩
        · exact absurd (hsame ▸ hnew) hold
        · rw [hd'.decisions, List.mem_append, List.mem_singleton] at hnew
          obtain rfl := hnew.resolve_left hold
          exact hlaunch' hlaunch
      · obtain ⟨front, task', back, hsplit, h⟩ := ih _ hd hnew
        exact ⟨task :: front, task', back, by rw [hsplit]; rfl, h⟩

/-- What was decided stays decided. -/
theorem decisions_of_run (f : Frame) (tasks : List Task) (s : PassState) :
    ∃ new, (tasks.foldl (perform f) s).decisions = s.decisions ++ new := by
  induction tasks generalizing s with
  | nil => exact ⟨[], by simp⟩
  | cons task rest ih =>
      obtain ⟨new, hnew⟩ := ih (perform f s task)
      rcases (perform_step f s task).decisions with hsame | ⟨_, d, hd, _⟩
      · exact ⟨new, by rw [List.foldl_cons, hnew, hsame]⟩
      · exact ⟨d :: new, by rw [List.foldl_cons, hnew, hd.decisions]; simp⟩

/-- What was placed and decided up to some turn, the report keeps. -/
theorem kept_in_report {front back : List Task} (m : Matcher)
    (hagenda : f.agenda = front ++ task :: back) :
    let s' := perform f (front.foldl (perform f) (start f m)) task
    s'.commitments <+: (f.run m).report.commitments ∧ s'.decisions <+: (f.run m).report.decisions := by
  intro s'
  have hrun : finished f m = back.foldl (perform f) s' := by
    rw [finished, hagenda, List.foldl_append, List.foldl_cons]
  have hwell : s'.timeline.WellFormed :=
    (perform_step f _ task).wellFormed (books_run f front _ (books_start f m)).wellFormed
  obtain ⟨placed, hplaced, _⟩ := new_commitment_of_run f back s' hwell
  obtain ⟨decided, hdecided⟩ := decisions_of_run f back s'
  exact ⟨⟨placed, (hrun ▸ hplaced).symm⟩, decided, (hrun ▸ hdecided).symm⟩

end Decisions

section Reviews

theorem Step.reservations_old (h : Step f s s' task) (ha : s'.reservations.get? id = some a) :
    s.reservations.get? id = some a := by
  rcases h.reservations_get? id with hsame | ⟨j, b, hexpires, rfl⟩
  · rw [← hsame]
    exact ha
  · rw [hexpires.reservations_get?] at ha
    cases ha

/-- A reservation that has not passed stays granted. -/
theorem Step.reservations_kept (h : Step f s s' task) (ha : s.reservations.get? id = some a)
    (hlast : f.now ≤ a.last) : s'.reservations.get? id = some a := by
  rcases h.reservations_get? id with hsame | ⟨j, b, hexpires, rfl⟩
  · rw [hsame]
    exact ha
  · have hb := hexpires.reserved
    have hpassed := hexpires.passed
    rw [ha] at hb
    cases hb
    omega

/-- A review leaves the placements of the other reservations alone. -/
theorem Step.placements_reserved {job : Job} (h : Step f s s' (.review job))
    (ha : s'.reservations.get? id = some a) : s'.placements.get? id = s.placements.get? id := by
  rcases h.placements_get? id with hsame | ⟨c, hc, rfl⟩ | ⟨j, b, hexpires, rfl⟩
  · exact hsame
  · have hnone := hc.unreserved (congrArg Task.review (Option.some.inj hc.job))
    rw [← hc.reservations, ha] at hnone
    cases hnone
  · rw [hexpires.reservations_get?] at ha
    cases ha

theorem reservations_old_run (tasks : List Task) (s : PassState)
    (ha : (tasks.foldl (perform f) s).reservations.get? id = some a) :
    s.reservations.get? id = some a := by
  induction tasks generalizing s with
  | nil => exact ha
  | cons task rest ih => exact (perform_step f s task).reservations_old (ih _ ha)

theorem reservations_kept_run (tasks : List Task) (s : PassState)
    (ha : s.reservations.get? id = some a) (hlast : f.now ≤ a.last) :
    (tasks.foldl (perform f) s).reservations.get? id = some a := by
  induction tasks generalizing s with
  | nil => exact ha
  | cons task rest ih => exact ih _ ((perform_step f s task).reservations_kept ha hlast)

theorem placements_reserved_run (tasks : List Task) (s : PassState)
    (htasks : ∀ task ∈ tasks, ∃ job, task = .review job)
    (ha : (tasks.foldl (perform f) s).reservations.get? id = some a) :
    (tasks.foldl (perform f) s).placements.get? id = s.placements.get? id := by
  induction tasks generalizing s with
  | nil => rfl
  | cons task rest ih =>
      obtain ⟨job, rfl⟩ := htasks task List.mem_cons_self
      have hstep := (perform_step f s (.review job)).placements_reserved
        (reservations_old_run rest _ ha)
      rw [List.foldl_cons, ih _ (fun t ht => htasks t (List.mem_cons_of_mem _ ht)) ha, hstep]

/-- At its review a granted reservation is placed as its row says. -/
theorem row_of_review {job : Job} {front back : List Task}
    (h : f.agenda = front ++ .review job :: back)
    (ha : (front.foldl (perform f) (start f m)).reservations.get? job.id = some a) :
    ∃ row ∈ f.rows, row.job = job.id ∧ a = f.rowAssignment row ∧
      f.reservedAssignment? row = some a ∧
      ((front.foldl (perform f) (start f m)).placements.get? job.id).map Placement.assignment =
        some a := by
  have hloaded := loaded_start f m
  obtain ⟨row, hrow, hid, hreserved⟩ :=
    (hloaded.reservations _ _).1 (reservations_old_run front _ ha)
  obtain ⟨hassignment, _, _, _, hplacement⟩ := Frame.standing?_of_reservedAssignment? hreserved
  refine ⟨row, hrow, hid, hassignment, hreserved, ?_⟩
  rw [placements_reserved_run front _ (Frame.reviews_before_review h).1 ha,
    (hloaded.placements _ _).2 ⟨row, hrow, hid, hplacement⟩, Option.map_some, hassignment]

theorem isClear_run_iff (tasks : List Task) {resources : OrdinalSet} :
    (tasks.foldl (perform f) (start f m)).IsClear resources ↔
      ∀ row ∈ f.rows, ∀ e, f.aside? row = some e → OrdinalSet.Disjoint resources e.2 := by
  simp only [IsClear, bestEffort_run, (loaded_start f m).bestEffort, List.mem_filterMap]
  constructor
  · intro h row hrow e he
    exact h e ⟨row, hrow, he⟩
  · rintro h e ⟨row, hrow, he⟩
    exact h row hrow e he

end Reviews

section Launches

/-- A commitment at the present second that launches its job. -/
structure LaunchesNow (f : Frame) (m : Matcher) (c : Commitment) : Prop where
  committed : c ∈ (finished f m).commitments
  waits : c.job ∈ f.waiting
  isPlain : c.job.isReservation = false
  holds : ∀ o ∈ c.placement.assignment.resources, c.placement.Holds o f.now
  clear : c.job.isBestEffort = true ∨
    ∀ row ∈ f.rows, ∀ e, f.aside? row = some e →
      OrdinalSet.Disjoint c.placement.assignment.resources e.2

theorem launch_cases (hd : d ∈ (finished f m).decisions) (hlaunch : d.outcome = .toLaunch) :
    (∃ row ∈ f.rows, f.IsDue row ∧ d.job = row.job ∧ d.assignment = some (f.rowAssignment row)) ∨
      ∃ c, LaunchesNow f m c ∧ d.job = c.job.id ∧ d.assignment = some c.placement.assignment := by
  have hloaded := loaded_start f m
  have hold : d ∉ (start f m).decisions := by
    rw [hloaded.decisions]
    exact List.not_mem_nil
  obtain ⟨front, task, back, hagenda, h⟩ := launch_of_run f.agenda _ hd hold hlaunch
  cases h with
  | @due job a hjob ha hdue hlast halive hclear hassignment =>
      obtain ⟨row, hrow, hid, rfl, hreserved, hplaced⟩ := row_of_review hagenda ha
      obtain ⟨queue, hqueue, hreview, hflag⟩ := (Frame.reviews_before_review hagenda).2
      refine Or.inl ⟨row, hrow, ?_, hjob.trans hid.symm, hassignment.trans hplaced⟩
      exact ⟨hreserved, ⟨queue, hqueue, job, hreview, hflag, hid.symm⟩, hdue, hlast, halive,
        (isClear_run_iff front).1 hclear⟩
  | @placed c hjob hcommits hstart hassignment hclear =>
      have hwell := (books_run f front (start f m) (books_start f m)).wellFormed
      have hmem : .consider c.job ∈ f.agenda := by
        rw [hagenda]
        simp
      obtain ⟨hwaits, hplain⟩ := Frame.job_of_consider hmem
      refine Or.inr ⟨c, ⟨mem_finished_of_commits hagenda hcommits, hwaits, hplain, ?_, ?_⟩, hjob,
        hassignment⟩
      · intro o ho
        rw [← hstart]
        exact hcommits.holds_start hwell ho
      · exact hclear.imp_right (isClear_run_iff front).1

/-- A review launches a reservation whose time has come if nothing delays it. -/
theorem Step.launches {job : Job} (h : Step f s s' (.review job))
    (ha : s.reservations.get? job.id = some a) (hdue : a.start ≤ f.now) (hlast : f.now ≤ a.last)
    (halive : a.resources.subset (f.catalog.inState .alive) = true)
    (hclear : s.IsClear a.resources) :
    ∃ d, s'.decisions = s.decisions ++ [d] ∧ d.outcome = .toLaunch ∧ d.job = job.id ∧
      d.assignment = (s.placements.get? job.id).map Placement.assignment := by
  have hsame : ∀ {b}, s.reservations.get? job.id = some b → b = a := by
    intro b hb
    rw [ha] at hb
    exact (Option.some.inj hb).symm
  have hreserved : ¬ (Task.review job).Reserves s job := by
    intro htask
    have hnone := unreserved_of_reserves htask rfl
    rw [ha] at hnone
    cases hnone
  cases h with
  | ahead hb hahead =>
      rw [hsame hb] at hahead
      omega
  | expired hb _ hpassed =>
      rw [hsame hb] at hpassed
      omega
  | delayed hb _ _ hdead =>
      rw [hsame hb, halive] at hdead
      cases hdead
  | awaited hb _ _ _ hblockers =>
      rw [hsame hb] at hblockers
      exact absurd (isClear_iff.2 hclear) hblockers
  | started hb _ _ _ _ hs => exact ⟨_, hs.decisions, rfl, rfl, rfl⟩
  | refused htask =>
      have hjob := job?_of_reserves htask
      cases hjob
      exact absurd htask hreserved
  | granted htask =>
      have hjob := job?_of_reserves htask
      cases hjob
      exact absurd htask hreserved

theorem exists_launch_of_due {row : GanttRow} (hrow : row ∈ f.rows) (h : f.IsDue row) :
    ∃ d ∈ (finished f m).decisions, d.outcome = .toLaunch ∧ d.job = row.job ∧
      d.assignment = some (f.rowAssignment row) := by
  obtain ⟨queue, hqueue, job, hreview, hflag, hid⟩ := h.reviewed
  have hmem : .review job ∈ f.agenda := by
    rw [Frame.agenda_eq_reviews]
    refine List.mem_append_left _ (List.mem_flatMap.2 ⟨queue, hqueue, ?_⟩)
    exact Frame.mem_reviews.2 ⟨job, hreview, hflag, rfl⟩
  obtain ⟨front, back, hagenda⟩ := List.append_of_mem hmem
  have hstart : (start f m).reservations.get? job.id = some (f.rowAssignment row) :=
    ((loaded_start f m).reservations _ _).2 ⟨row, hrow, hid.symm, h.reserved⟩
  have hget := reservations_kept_run front _ hstart h.lasts
  obtain ⟨_, _, _, _, _, hplaced⟩ := row_of_review hagenda hget
  obtain ⟨d, hd, hlaunch, hjob, hassignment⟩ :=
    (perform_step f (front.foldl (perform f) (start f m)) (.review job)).launches hget h.begun
      h.lasts h.alive ((isClear_run_iff front).2 h.clear)
  refine ⟨d, ?_, hlaunch, hjob.trans hid, hassignment.trans hplaced⟩
  obtain ⟨new, hnew⟩ := decisions_of_run f back
    (perform f (front.foldl (perform f) (start f m)) (.review job))
  rw [finished, hagenda, List.foldl_append, List.foldl_cons, hnew, hd]
  simp

end Launches

end PassState
end ClusterPlan
