import ClusterPlan.Proofs.Pass.Search

/-!
What a pass knows at each of its points. Its matcher answers for the catalog, and all that it remembers
about shapes is right: searches keep that, and a timeline with less free does not make it wrong.
-/

namespace ClusterPlan.PassState

variable {f : Frame} {s s' : PassState} {job : Job} {task : Task}

theorem forJob_serves {m : Matcher} {c : Catalog} (h : m.Serves c) (job : Job) :
    (m.forJob c job).1.Serves c := by
  by_cases hnone : job.alternatives = []
  · simp only [Matcher.forJob, hnone, Matcher.candidates]
    exact h
  · exact (Matcher.candidates_eq h.ready job.filter job.alternatives).2 hnone

theorem forJob_eq {m : Matcher} {c : Catalog} (h : m.Serves c) (job : Job) :
    (m.forJob c job).2 = job.alternatives.map (c.candidate job.filter) :=
  (Matcher.candidates_eq h.ready job.filter job.alternatives).1

/-- The alternatives of a job that the catalog can serve, in order. -/
def candidatesOf (c : Catalog) (job : Job) : List (Alternative × Candidate) :=
  job.alternatives.filterMap fun a =>
    match c.candidate job.filter a with
    | .ok found => some (a, found)
    | .error _ => none

theorem matched_eq (c : Catalog) (job : Job) :
    matched job (job.alternatives.map (c.candidate job.filter)) = candidatesOf c job := by
  simp only [matched, candidatesOf]
  induction job.alternatives with
  | nil => rfl
  | cons a rest ih =>
      rw [List.map_cons, List.zip_cons_cons, List.filterMap_cons, List.filterMap_cons, ih]
      cases c.candidate job.filter a <;> rfl

theorem mem_candidatesOf {c : Catalog} {e : Alternative × Candidate} :
    e ∈ candidatesOf c job ↔
      e.1 ∈ job.alternatives ∧ c.candidate job.filter e.1 = .ok e.2 := by
  simp only [candidatesOf, List.mem_filterMap]
  constructor
  · rintro ⟨a, ha, he⟩
    cases hc : c.candidate job.filter a with
    | error _ => simp [hc] at he
    | ok found =>
        simp only [hc, Option.some.injEq] at he
        cases he
        exact ⟨ha, hc⟩
  · rintro ⟨ha, hc⟩
    exact ⟨e.1, ha, by rw [hc]⟩

/-- Where the alternatives that resolve have a single part, the candidates are steady. -/
theorem steady_of_singleParts (h : ∀ a ∈ job.alternatives,
    (f.catalog.candidate job.filter a).isOk = true → a.parts.length = 1) :
    ∀ e ∈ candidatesOf f.catalog job, e.2.Steady := by
  intro e he
  obtain ⟨ha, hc⟩ := mem_candidatesOf.1 he
  obtain ⟨_, _, _, _, hparts⟩ := Catalog.candidate_eq_ok hc
  exact Candidate.steady_of_singlePart (hparts.trans (h e.1 ha (by rw [hc]; rfl)))

theorem matches_candidatesOf : Matches f job (candidatesOf f.catalog job) :=
  fun _ he => (mem_candidatesOf.1 he).2

/-- What a pass knows at any point: its timeline is that of the frame, its matcher answers for the
catalog, and what it remembers about shapes is right. -/
structure Informed (f : Frame) (s : PassState) : Prop where
  times : f.Times s.timeline
  serves : s.matcher.Serves f.catalog
  right : FitsRight f s.timeline s.fits

theorem Step.times (h : Step f s s' task) (hs : f.Times s.timeline) : f.Times s'.timeline := by
  have hbounds : s'.timeline.origin = s.timeline.origin ∧
      s'.timeline.horizon = s.timeline.horizon := by
    rcases h.cases_placements with ⟨c, hc⟩ | ⟨j, a, hexpires⟩ | ⟨htimeline | htimeline, _⟩
    · rw [hc.timeline]
      exact ⟨Timeline.occupy_origin .., Timeline.occupy_horizon ..⟩
    · rw [hexpires.timeline]
      exact ⟨rfl, rfl⟩
    · rw [htimeline]
      exact ⟨rfl, rfl⟩
    · rw [htimeline, occupyBestEffort_timeline, foldl_occupyPlaced]
      exact ⟨Timeline.occupyAll_origin .., Timeline.occupyAll_horizon ..⟩
  exact ⟨h.wellFormed hs.wellFormed, hbounds.1.trans hs.origin, hbounds.2.trans hs.horizon⟩

theorem placeReserved_memory (f : Frame) (job : Job) (start : Int)
    (results : List (Except Error Candidate)) (obstacle : Obstacle) (s : PassState) :
    SameMemory s (placeReserved f job start results obstacle s) := by
  rcases placeReserved_cases f job start results obstacle s with ⟨o, ho⟩ | ⟨c, r, _, _, hplaced⟩
  · rw [ho]
    exact ⟨rfl, rfl, rfl⟩
  · rw [hplaced]
    have hbooked := booked_memory s f job c start r
    exact ⟨hbooked.matcher, hbooked.fits, hbooked.blocker⟩

/-- What a task about a reservation leaves of what the pass knows: the matcher may have been
asked. -/
structure Asks (f : Frame) (s s' : PassState) : Prop where
  serves : s'.matcher.Serves f.catalog
  fits : s'.fits = s.fits
  blocker : s'.blocker = s.blocker

theorem placeReservation_asks (hs : s.matcher.Serves f.catalog) (job : Job) :
    Asks f s (placeReservation f s job) := by
  simp only [placeReservation]
  split
  · exact ⟨hs, rfl, rfl⟩
  · split
    · exact ⟨hs, rfl, rfl⟩
    · rename_i start _ _
      have hmemory := placeReserved_memory f job start (s.matcher.forJob f.catalog job).2 .unresolved
        { s with matcher := (s.matcher.forJob f.catalog job).1 }
      exact ⟨hmemory.matcher ▸ forJob_serves hs job, hmemory.fits, hmemory.blocker⟩

theorem reviewReservation_asks (hs : s.matcher.Serves f.catalog) (job : Job) :
    Asks f s (reviewReservation f s job) := by
  simp only [reviewReservation]
  split
  · have hasks := placeReservation_asks (s := s.notify (.reservationWithoutRow job.id)) hs job
    exact ⟨hasks.serves, hasks.fits, hasks.blocker⟩
  · split
    · exact ⟨hs, rfl, rfl⟩
    · split
      · exact ⟨hs, rfl, rfl⟩
      · simp only [startReservation]
        split
        · split <;> exact ⟨hs, rfl, rfl⟩
        · exact ⟨hs, rfl, rfl⟩

theorem place_learns {candidates : List (Alternative × Candidate)} (hs : f.Times s.timeline)
    (hfits : FitsRight f s.timeline s.fits) (hmatch : Matches f job candidates) :
    Learns f s (place f job candidates s).1 := by
  simp only [place]
  split
  · exact placeNow_learns .notEnough hs hfits hmatch
  · exact placeEarliest_learns hs hfits hmatch

theorem wishWakeup_memory (f : Frame) (job : Job) (candidates : List (Alternative × Candidate))
    (s : PassState) : SameMemory s (wishWakeup f job candidates s) := by
  simp only [wishWakeup]
  split <;> exact ⟨rfl, rfl, rfl⟩

/-- The state after the matcher was asked about a job. -/
def asked (s : PassState) (f : Frame) (job : Job) : PassState :=
  { s with matcher := (s.matcher.forJob f.catalog job).1 }

theorem asked_eq (hfree : s.blocker = none) : s.asked f job =
    { s with matcher := (s.matcher.forJob f.catalog job).1, blocker := none } := by
  rw [asked, ← hfree]

/-- What happens to a job that no other one holds up. -/
theorem consider_eq (hserves : s.matcher.Serves f.catalog) (hfree : s.blocker = none) (job : Job) :
    consider f s job =
      if (candidatesOf f.catalog job).isEmpty then
        (s.asked f job).decideUnmatched job (job.alternatives.map (f.catalog.candidate job.filter))
      else
        let placed := place f job (candidatesOf f.catalog job) (s.asked f job)
        if placed.2 || f.config.policy == .backfill then placed.1
        else { wishWakeup f job (candidatesOf f.catalog job) placed.1 with blocker := some job.id } := by
  simp only [consider, hfree]
  rw [forJob_eq hserves, matched_eq, asked_eq hfree]

/-- What is known after a job was considered. Only the strict policy lets a job hold up others. -/
theorem consider_knows (hs : Informed f s) (job : Job) :
    (consider f s job).matcher.Serves f.catalog ∧
      FitsRight f s.timeline (consider f s job).fits ∧
      (f.config.policy = .backfill → s.blocker = none → (consider f s job).blocker = none) := by
  have hserves := forJob_serves hs.serves job
  cases hblocker : s.blocker with
  | some blocker =>
      simp only [consider, hblocker]
      exact ⟨hs.serves, hs.right, fun _ hnone => absurd hnone (Option.some_ne_none blocker)⟩
  | none =>
      rw [consider_eq hs.serves hblocker]
      split
      · simp only [decideUnmatched]
        split <;> exact ⟨hserves, hs.right, fun _ _ => hblocker⟩
      · have hplace := place_learns (s := s.asked f job) hs.times hs.right
          (@matches_candidatesOf f job)
        have hmatcher : (place f job (candidatesOf f.catalog job) (s.asked f job)).1.matcher.Serves
            f.catalog := by
          rw [hplace.matcher]
          exact hserves
        have hwish := wishWakeup_memory f job (candidatesOf f.catalog job)
          (place f job (candidatesOf f.catalog job) (s.asked f job)).1
        simp only
        split
        · exact ⟨hmatcher, hplace.right, fun _ _ => hplace.blocker.trans hblocker⟩
        · rename_i hstrict
          refine ⟨hwish.matcher ▸ hmatcher, hwish.fits ▸ hplace.right, fun hpolicy _ => ?_⟩
          simp [hpolicy] at hstrict

theorem Informed.step (hs : Informed f s) (task : Task) :
    Informed f (perform f s task) ∧
      (f.config.policy = .backfill → s.blocker = none → (perform f s task).blocker = none) := by
  have hstep := perform_step f s task
  have htimes := hstep.times hs.times
  have hknows : (perform f s task).matcher.Serves f.catalog ∧
      FitsRight f s.timeline (perform f s task).fits ∧
      (f.config.policy = .backfill → s.blocker = none → (perform f s task).blocker = none) := by
    cases task with
    | review job =>
        have hasks := reviewReservation_asks hs.serves job
        exact ⟨hasks.serves, hasks.fits ▸ hs.right, fun _ h => hasks.blocker.trans h⟩
    | reserve job =>
        have hasks := placeReservation_asks hs.serves job
        exact ⟨hasks.serves, hasks.fits ▸ hs.right, fun _ h => hasks.blocker.trans h⟩
    | consider job => exact consider_knows hs job
    | openQueue => exact ⟨hs.serves, hs.right, fun _ _ => rfl⟩
    | showBestEffort => exact ⟨hs.serves, hs.right, fun _ h => h⟩
  exact ⟨⟨htimes, hknows.1, hknows.2.1.mono hs.times htimes
    fun o t => hstep.free_of_free hs.times.wellFormed⟩, hknows.2.2⟩

theorem memory_loadRow (s : PassState) (row : GanttRow) : SameMemory s (loadRow f s row) := by
  cases hstanding : f.standing? row with
  | none =>
      rw [loadRow_of_not_standing hstanding]
      exact ⟨rfl, rfl, rfl⟩
  | some e =>
      obtain ⟨job, last⟩ := e
      cases haside : Frame.keepsAside job with
      | true =>
          obtain ⟨notices, hload⟩ := loadRow_of_keepsAside hstanding haside s
          rw [hload]
          exact ⟨rfl, rfl, rfl⟩
      | false =>
          obtain ⟨notices, hload⟩ := loadRow_of_not_keepsAside hstanding haside s
          rw [hload]
          exact ⟨rfl, rfl, rfl⟩

theorem memory_foldl_loadRow (rows : List GanttRow) (s : PassState) :
    SameMemory s (rows.foldl (loadRow f) s) := by
  induction rows generalizing s with
  | nil => exact ⟨rfl, rfl, rfl⟩
  | cons row rest ih => exact (memory_loadRow s row).trans (ih (loadRow f s row))

theorem memory_noticeUnknownQueues (f : Frame) (s : PassState) :
    SameMemory s (noticeUnknownQueues f s) := by
  obtain ⟨notices, hnotices⟩ := noticeUnknownQueues_eq f s
  rw [hnotices]
  exact ⟨rfl, rfl, rfl⟩

theorem memory_start (f : Frame) (m : Matcher) : SameMemory (initial f m) (start f m) := by
  have hload := memory_foldl_loadRow (f := f) f.rows (f.closures.foldl close (initial f m))
  rw [timeline_foldl_close] at hload
  have hnotice := memory_noticeUnknownQueues f ((initial f m).load f)
  rw [load, timeline_foldl_close] at hnotice
  rw [start, load, timeline_foldl_close]
  exact SameMemory.trans ⟨hload.matcher, hload.fits, hload.blocker⟩ hnotice

theorem informed_start {m : Matcher} (h : m.Ready f.catalog) : Informed f (start f m) := by
  have hloaded := loaded_start f m
  have hmemory := memory_start f m
  refine ⟨⟨hloaded.wellFormed, hloaded.origin, hloaded.horizon⟩, ?_, ?_⟩
  · rw [hmemory.matcher]
    exact Matcher.serves_bind h
  · rw [hmemory.fits]
    exact .nil

theorem informed_run (tasks : List Task) (hs : Informed f s) :
    Informed f (tasks.foldl (perform f) s) := by
  induction tasks generalizing s with
  | nil => exact hs
  | cons task rest ih => exact ih (hs.step task).1

/-- Backfill never lets a job hold up others. -/
theorem blocker_run (hpolicy : f.config.policy = .backfill) (tasks : List Task)
    (hs : Informed f s) (hblocker : s.blocker = none) :
    (tasks.foldl (perform f) s).blocker = none := by
  induction tasks generalizing s with
  | nil => exact hblocker
  | cons task rest ih => exact ih (hs.step task).1 ((hs.step task).2 hpolicy hblocker)

end ClusterPlan.PassState
