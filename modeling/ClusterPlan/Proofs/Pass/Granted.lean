import ClusterPlan.Proofs.Pass.Launching

/-!
What a pass does about a granted reservation. Until it is launched or given up the pass reports nothing
new about it, and all that the pass commits leaves its resources alone.
-/

namespace ClusterPlan

/-- Whether the decision ends the wait of the job. -/
def Decision.Settles (d : Decision) (job : Int) : Prop :=
  d.job = job ∧ (d.outcome = .toLaunch ∨ d.outcome = .error)

/-- The row is that of a waiting reservation, and its id is that of no other kind of job. -/
structure Frame.Grants (f : Frame) (row : GanttRow) : Prop where
  mem : row ∈ f.rows
  idle : f.activeJob? row.job = none
  reserved : ∃ job, f.reservedJob? row.job = some job
  waits : ∀ job ∈ f.waiting, job.id = row.job → job.state = .waiting ∧ job.reservation = .scheduled

namespace PassState

variable {f : Frame} {m : Matcher} {s s' : PassState} {task : Task} {id : Int} {row : GanttRow}

/-- The reservation holds its row, and nothing new was said about it. -/
structure Stands (s : PassState) (id : Int) : Prop where
  reserved : ∃ a, s.reservations.get? id = some a
  placed : ∃ p, s.placements.get? id = some p
  uncommitted : ∀ c ∈ s.commitments, c.job.id ≠ id
  unchanged : ∀ d ∈ s.decisions, d.job = id → d.changed = false

/-- The task does nothing about the id but to review its granted reservation. -/
def ReviewsOnly (id : Int) (task : Task) : Prop :=
  ∀ job, task.job? = some job → job.id = id →
    task = .review job ∧ job.state = .waiting ∧ job.reservation = .scheduled

theorem stands_start (h : f.Grants row) (m : Matcher) : (start f m).Stands row.job := by
  obtain ⟨job, hjob⟩ := h.reserved
  obtain ⟨hmem, hflag, hid⟩ := Frame.mem_of_reservedJob? hjob
  have hloaded := loaded_start f m
  have hstanding := Frame.standing?_of_reserved h.idle hjob
  have hreserved := Frame.reservedAssignment?_of_waiting hstanding hflag (h.waits job hmem hid).1
  refine ⟨⟨_, (hloaded.reservations _ _).2 ⟨row, h.mem, rfl, hreserved⟩⟩, ?_, ?_, ?_⟩
  · have hplacement := (Frame.standing?_of_reservedAssignment? hreserved).2.2.2.2
    exact ⟨_, (hloaded.placements _ _).2 ⟨row, h.mem, rfl, hplacement⟩⟩
  · rw [hloaded.commitments]
    exact List.forall_mem_nil _
  · rw [hloaded.decisions]
    exact List.forall_mem_nil _

section Steps

theorem Commits.id_ne {c : Commitment} (hc : Commits f s s' task c) (htask : ReviewsOnly id task)
    (hs : s.Stands id) : c.job.id ≠ id := by
  intro hid
  obtain ⟨a, ha⟩ := hs.reserved
  have hnone := hc.unreserved (htask c.job hc.job hid).1
  rw [hid, ha] at hnone
  cases hnone

theorem Expires.id_ne {job : Job} {a : Assignment} (hexpires : Expires f s s' task job a)
    (hopen : ∀ d ∈ s'.decisions, ¬ d.Settles id) : job.id ≠ id := by
  intro hid
  obtain ⟨d, hd, hjob, herror⟩ := hexpires.decided
  exact hopen d hd ⟨hjob.trans hid, Or.inr herror⟩

theorem Decides.unchanged {job : Job} {d : Decision} (hd : Decides s s' task job d)
    (htask : ReviewsOnly id task) (hs : s.Stands id) (hopen : ¬ d.Settles id) (hid : d.job = id) :
    d.changed = false := by
  obtain ⟨a, ha⟩ := hs.reserved
  have hjob : job.id = id := hd.id.symm.trans hid
  obtain ⟨hreview, hstate, hflag⟩ := htask job hd.isAbout hjob
  have hget : s.reservations.get? job.id ≠ none := by
    rw [hjob, ha]
    exact Option.some_ne_none a
  rcases hd.reviewed hreview hget with hlaunch | herror | ⟨hwaiting, hscheduled⟩
  · exact absurd ⟨hid, Or.inl hlaunch⟩ hopen
  · exact absurd ⟨hid, Or.inr herror⟩ hopen
  · rw [hd.changed, hwaiting, hscheduled, hstate, hflag]
    rfl

theorem Step.stands (h : Step f s s' task) (htask : ReviewsOnly id task) (hs : s.Stands id)
    (hopen : ∀ d ∈ s'.decisions, ¬ d.Settles id) : s'.Stands id := by
  have hunchanged : ∀ d ∈ s'.decisions, d.job = id → d.changed = false := by
    intro d hd hid
    rcases h.decisions with hsame | ⟨job, new, hnew, _⟩
    · rw [hsame] at hd
      exact hs.unchanged d hd hid
    · have hmem := hd
      rw [hnew.decisions, List.mem_append, List.mem_singleton] at hmem
      rcases hmem with hold | rfl
      · exact hs.unchanged d hold hid
      · exact hnew.unchanged htask hs (hopen d hd) hid
  refine ⟨?_, ?_, ?_, hunchanged⟩
  · rcases h.reservations_get? id with hsame | ⟨job, a, hexpires, hid⟩
    · rw [hsame]
      exact hs.reserved
    · exact absurd hid (hexpires.id_ne hopen)
  · rcases h.placements_get? id with hsame | ⟨c, hc, hid⟩ | ⟨job, a, hexpires, hid⟩
    · rw [hsame]
      exact hs.placed
    · exact absurd hid (hc.id_ne htask hs)
    · exact absurd hid (hexpires.id_ne hopen)
  · rcases h.commitments with ⟨c, hc⟩ | hsame
    · intro d hd
      rw [hc.commitments, List.mem_append, List.mem_singleton] at hd
      rcases hd with hd | rfl
      · exact hs.uncommitted d hd
      · exact hc.id_ne htask hs
    · rw [hsame]
      exact hs.uncommitted

end Steps

theorem stands_run (tasks : List Task) (s : PassState) (hs : s.Stands id)
    (htasks : ∀ task ∈ tasks, ReviewsOnly id task)
    (hopen : ∀ d ∈ (tasks.foldl (perform f) s).decisions, ¬ d.Settles id) :
    (tasks.foldl (perform f) s).Stands id := by
  induction tasks generalizing s with
  | nil => exact hs
  | cons task rest ih =>
      obtain ⟨htask, hrest⟩ := List.forall_mem_cons.1 htasks
      obtain ⟨new, hnew⟩ := decisions_of_run f rest (perform f s task)
      apply ih (perform f s task) _ hrest hopen
      apply (perform_step f s task).stands htask hs
      intro d hd
      apply hopen d
      rw [List.foldl_cons, hnew]
      exact List.mem_append_left _ hd

end PassState

namespace Frame.Grants

variable {f : Frame} {row : GanttRow}

theorem reviewsOnly (h : f.Grants row) :
    ∀ task ∈ f.agenda, PassState.ReviewsOnly row.job task := by
  intro task htask job hjob hid
  obtain ⟨hwaiting, hstate, hflag⟩ := Frame.job_of_agenda htask hjob
  have hscheduled := (h.waits job hwaiting hid).2
  rcases hflag with ⟨hreview, _⟩ | ⟨_, hnew⟩ | ⟨_, hplain⟩
  · exact ⟨hreview, hstate, hscheduled⟩
  · rw [hscheduled] at hnew
    cases hnew
  · rw [Job.isReservation, hscheduled] at hplain
    cases hplain

theorem clears (h : f.Grants row) (m : Matcher) :
    ∀ c ∈ (f.run m).report.commitments, f.Clears c.placement.assignment row := by
  obtain ⟨job, hjob⟩ := h.reserved
  obtain ⟨hmem, _, hid⟩ := Frame.mem_of_reservedJob? hjob
  intro c hc
  exact PassState.clears_of_reserved hc h.mem h.idle hjob (h.waits job hmem hid).1

/-- Unless it is settled, a report says nothing new about a granted reservation. -/
theorem unreported (h : f.Grants row) (m : Matcher)
    (hopen : ∀ d ∈ (f.run m).report.decisions, ¬ d.Settles row.job) :
    row.job ∉ (f.run m).report.dropped ∧
      (∀ r ∈ (f.run m).report.newRows, r.job ≠ row.job) ∧
      ∀ d ∈ (f.run m).report.changes, d.job ≠ row.job := by
  have hstands : (PassState.finished f m).Stands row.job :=
    PassState.stands_run f.agenda _ (PassState.stands_start h m) h.reviewsOnly hopen
  refine ⟨?_, ?_, ?_⟩
  · intro hdropped
    obtain ⟨r, hr, hid⟩ := List.mem_map.1 hdropped
    obtain ⟨p, hp⟩ := hstands.placed
    have hgone := (List.mem_filter.1 hr).2
    rw [hid, Dictionary.has, hp] at hgone
    cases hgone
  · intro r hr
    obtain ⟨c, hc, rfl⟩ := List.mem_map.1 (List.mem_filter.1 hr).1
    exact hstands.uncommitted c hc
  · intro d hd hid
    obtain ⟨hmem, hchanged⟩ := List.mem_filter.1 hd
    rw [hstands.unchanged d hmem hid] at hchanged
    cases hchanged

end Frame.Grants

end ClusterPlan
