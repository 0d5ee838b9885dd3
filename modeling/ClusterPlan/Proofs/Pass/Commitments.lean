import ClusterPlan.Proofs.Matching.Selection
import ClusterPlan.Proofs.Pass.Loading

/-!
The resources that a pass commits. Every commitment takes what was free at each second of its window
and leaves none of it free, so nothing that a pass does gives a resource to two of them.
-/

namespace ClusterPlan

/-- Whether a placement holds the resource at `t`. -/
def Placement.Holds (p : Placement) (o : Nat) (t : Int) : Prop :=
  o ∈ p.assignment.resources ∧ p.assignment.start ≤ t ∧ t ≤ p.heldUntil

/-- The job that a task is about. -/
def Task.job? : Task → Option Job
  | .review job | .reserve job | .consider job => some job
  | .openQueue | .showBestEffort => none

namespace PassState

variable {f : Frame} {s s' : PassState} {task : Task} {c : Commitment} {o : Nat} {t : Int}

/-- A task that places its job. -/
structure Commits (f : Frame) (s s' : PassState) (task : Task) (c : Commitment) : Prop where
  commitments : s'.commitments = s.commitments ++ [c]
  job : task.job? = some c.job
  timeline : s'.timeline = s.timeline.occupy c.placement.assignment.start c.placement.heldUntil
    c.placement.assignment.resources
  placements : s'.placements = s.placements.put c.job.id c.placement
  reservations : s'.reservations = s.reservations
  ledger : s'.ledger = (s.claimStanding c.job c.placement.assignment.resources.card
    c.placement.assignment.start c.placement.heldUntil).ledger
  claims : s'.claims = (s.claimStanding c.job c.placement.assignment.resources.card
    c.placement.assignment.start c.placement.heldUntil).claims
  /-- A granted reservation is not placed again. -/
  unreserved : task = .review c.job → s.reservations.get? c.job.id = none
  heldUntil : c.placement.heldUntil =
    f.heldOnTimeline c.placement.assignment.start c.placement.assignment.walltime
  isFound : ∃ a, s.Finds f c.job a c.placement.assignment.start c.placement.assignment.resources ∧
    a.walltime = c.placement.assignment.walltime

/-- A task that gives up the placement of a reservation that has passed. -/
structure Expires (f : Frame) (s s' : PassState) (task : Task) (job : Job) (a : Assignment) :
    Prop where
  isReview : task = .review job
  reserved : s.reservations.get? job.id = some a
  passed : a.last < f.now
  timeline : s'.timeline = s.timeline
  placements : s'.placements = s.placements.erase job.id
  reservations : s'.reservations = s.reservations.erase job.id
  ledger : s'.ledger = (s.abandon job.id).ledger
  claims : s'.claims = s.claims.erase job.id
  commitments : s'.commitments = s.commitments
  decided : ∃ d ∈ s'.decisions, d.job = job.id ∧ d.outcome = .error

/-- A task that leaves all placements as they are. -/
structure Keeps (s s' : PassState) : Prop where
  timeline : s'.timeline = s.timeline ∨ s'.timeline = s.occupyBestEffort.timeline
  placements : s'.placements = s.placements
  reservations : s'.reservations = s.reservations
  ledger : s'.ledger = s.ledger
  claims : s'.claims = s.claims
  commitments : s'.commitments = s.commitments

/-- The commitment of a booking. -/
def commitmentOf (f : Frame) (job : Job) (a : Candidate) (start : Int) (resources : OrdinalSet) :
    Commitment :=
  ⟨job, ⟨f.heldOnTimeline start a.walltime, ⟨a.id, start, a.walltime, resources⟩⟩⟩

theorem booked_eq (s : PassState) (f : Frame) (job : Job) (a : Candidate) (start : Int)
    (resources : OrdinalSet) : ∃ ledger claims, s.booked f job a start resources =
      { s with
        ledger := ledger
        claims := claims
        timeline := s.timeline.occupy start (f.heldOnTimeline start a.walltime) resources
        placements := s.placements.put job.id (commitmentOf f job a start resources).placement
        commitments := s.commitments ++ [commitmentOf f job a start resources] } := by
  obtain ⟨ledger, claims, hclaim⟩ := claimStanding_eq s job resources.card start
    (f.heldOnTimeline start a.walltime)
  refine ⟨ledger, claims, ?_⟩
  rw [booked, hclaim]
  rfl

section Unbooked

variable (s f) (job : Job) (c : Candidate) (start : Int) (resources : OrdinalSet)

theorem bestEffort_booked : (s.booked f job c start resources).bestEffort = s.bestEffort := by
  obtain ⟨_, _, hbooked⟩ := booked_eq s f job c start resources
  rw [hbooked]

theorem victims_booked : (s.booked f job c start resources).victims = s.victims := by
  obtain ⟨_, _, hbooked⟩ := booked_eq s f job c start resources
  rw [hbooked]

theorem decisions_booked : (s.booked f job c start resources).decisions = s.decisions := by
  obtain ⟨_, _, hbooked⟩ := booked_eq s f job c start resources
  rw [hbooked]

end Unbooked

theorem commits_of_booked {job : Job} {a : Candidate} {start : Int} {resources : OrdinalSet}
    (htask : task.job? = some job)
    (hunreserved : task = .review job → s.reservations.get? job.id = none)
    (hfinds : s.Finds f job a start resources)
    (hcommitments : s'.commitments = (s.booked f job a start resources).commitments)
    (htimeline : s'.timeline = (s.booked f job a start resources).timeline)
    (hplacements : s'.placements = (s.booked f job a start resources).placements)
    (hreservations : s'.reservations = (s.booked f job a start resources).reservations)
    (hledger : s'.ledger = (s.booked f job a start resources).ledger)
    (hclaims : s'.claims = (s.booked f job a start resources).claims) :
    Commits f s s' task (commitmentOf f job a start resources) := by
  obtain ⟨ledger, claims, hbooked⟩ := booked_eq s f job a start resources
  rw [hbooked] at hreservations
  exact
    { commitments := hcommitments
      job := htask
      timeline := htimeline
      placements := hplacements
      reservations := hreservations
      ledger := hledger
      claims := hclaims
      unreserved := hunreserved
      heldUntil := rfl
      isFound := ⟨a, hfinds, rfl⟩ }

theorem launch_books (s : PassState) (job : Job) (a : Candidate) (resources : OrdinalSet) :
    (s.launch job a resources).commitments = s.commitments ∧
      (s.launch job a resources).timeline = s.timeline ∧
      (s.launch job a resources).placements = s.placements ∧
      (s.launch job a resources).reservations = s.reservations ∧
      (s.launch job a resources).ledger = s.ledger ∧
      (s.launch job a resources).claims = s.claims ∧
      (s.launch job a resources).bestEffort = s.bestEffort := by
  simp only [launch]
  cases job.isBestEffort <;> simp only [Bool.false_eq_true, if_false, if_true] <;> split <;>
    exact ⟨rfl, rfl, rfl, rfl, rfl, rfl, rfl⟩

theorem commits_of_launched {job : Job} {c : Candidate} {resources : OrdinalSet}
    (hfinds : s.Finds f job c f.now resources)
    (hs : Alike ((s.booked f job c f.now resources).launch job c resources) s') :
    Commits f s s' (.consider job) (commitmentOf f job c f.now resources) := by
  obtain ⟨hcommitments, htimeline, hplacements, hreservations, hledger, hclaims, _⟩ :=
    launch_books (s.booked f job c f.now resources) job c resources
  exact commits_of_booked rfl nofun hfinds (hs.commitments.trans hcommitments)
    (hs.timeline.trans htimeline) (hs.placements.trans hplacements)
    (hs.reservations.trans hreservations) (hs.ledger.trans hledger) (hs.claims.trans hclaims)

theorem job?_of_reserves {job : Job} (h : task.Reserves s job) : task.job? = some job := by
  rcases h with rfl | ⟨rfl, _⟩ <;> rfl

theorem not_reserves_of_reserved {job job' : Job} {a : Assignment}
    (ha : s.reservations.get? job.id = some a) : ¬ (Task.review job).Reserves s job' := by
  rintro (htask | ⟨htask, hnone⟩)
  · cases htask
  · cases htask
    rw [ha] at hnone
    cases hnone

theorem unreserved_of_reserves {job : Job} (h : task.Reserves s job) (hreview : task = .review job) :
    s.reservations.get? job.id = none := by
  rcases h with rfl | ⟨_, hnone⟩
  · cases hreview
  · exact hnone

theorem expires_of_abandoned {job : Job} {a : Assignment} {note : Note}
    (ha : s.reservations.get? job.id = some a) (hlast : a.last < f.now)
    (hs : Alike ((s.abandon job.id).decide job .error .error .scheduled note) s') :
    Expires f s s' (.review job) job a where
  isReview := rfl
  reserved := ha
  passed := hlast
  timeline := hs.timeline
  placements := hs.placements
  reservations := hs.reservations
  ledger := hs.ledger
  claims := hs.claims
  commitments := hs.commitments
  decided := by
    rw [hs.decisions]
    exact ⟨_, List.mem_append_right _ (List.mem_singleton_self _), rfl, rfl⟩

theorem Step.cases_placements (h : Step f s s' task) :
    (∃ c, Commits f s s' task c) ∨ (∃ job a, Expires f s s' task job a) ∨ Keeps s s' := by
  cases h with
  | opened hs | ahead _ _ hs | delayed _ _ _ _ hs | awaited _ _ _ _ _ hs | started _ _ _ _ _ hs
  | refused _ hs | kept hs | rejected hs =>
      exact Or.inr (Or.inr ⟨Or.inl hs.timeline, hs.placements, hs.reservations, hs.ledger,
        hs.claims, hs.commitments⟩)
  | shown hs =>
      exact Or.inr (Or.inr ⟨Or.inr hs.timeline, hs.placements, hs.reservations, hs.ledger,
        hs.claims, hs.commitments⟩)
  | expired ha _ hlast hs => exact Or.inr (Or.inl ⟨_, _, expires_of_abandoned ha hlast hs⟩)
  | granted htask _ _ hfinds hs =>
      exact Or.inl ⟨_, commits_of_booked (job?_of_reserves htask) (unreserved_of_reserves htask)
        hfinds hs.commitments hs.timeline hs.placements hs.reservations hs.ledger hs.claims⟩
  | planned _ hfinds hs =>
      exact Or.inl ⟨_, commits_of_booked rfl nofun hfinds hs.commitments hs.timeline hs.placements
        hs.reservations hs.ledger hs.claims⟩
  | launched hfinds hs => exact Or.inl ⟨_, commits_of_launched hfinds hs⟩

/-- A reservation goes only when its time has passed. -/
theorem Step.reservations_get? (h : Step f s s' task) (id : Int) :
    s'.reservations.get? id = s.reservations.get? id ∨
      ∃ job a, Expires f s s' task job a ∧ job.id = id := by
  rcases h.cases_placements with ⟨c, hc⟩ | ⟨job, a, hexpires⟩ | hkeeps
  · rw [hc.reservations]
    exact Or.inl rfl
  · by_cases hid : job.id = id
    · exact Or.inr ⟨job, a, hexpires, hid⟩
    · rw [hexpires.reservations, Dictionary.get?_erase, if_neg hid]
      exact Or.inl rfl
  · rw [hkeeps.reservations]
    exact Or.inl rfl

/-- What is placed under an id changes only by a commitment or an expiry under that id. -/
theorem Step.placements_get? (h : Step f s s' task) (id : Int) :
    s'.placements.get? id = s.placements.get? id ∨
      (∃ c, Commits f s s' task c ∧ c.job.id = id) ∨
      ∃ job a, Expires f s s' task job a ∧ job.id = id := by
  rcases h.cases_placements with ⟨c, hc⟩ | ⟨job, a, hexpires⟩ | hkeeps
  · by_cases hid : c.job.id = id
    · exact Or.inr (Or.inl ⟨c, hc, hid⟩)
    · rw [hc.placements, Dictionary.get?_put, if_neg hid]
      exact Or.inl rfl
  · by_cases hid : job.id = id
    · exact Or.inr (Or.inr ⟨job, a, hexpires, hid⟩)
    · rw [hexpires.placements, Dictionary.get?_erase, if_neg hid]
      exact Or.inl rfl
  · rw [hkeeps.placements]
    exact Or.inl rfl

theorem Expires.reservations_get? {job : Job} {a : Assignment}
    (h : Expires f s s' task job a) : s'.reservations.get? job.id = none := by
  rw [h.reservations, Dictionary.get?_erase, if_pos rfl]

theorem Step.bestEffort (h : Step f s s' task) : s'.bestEffort = s.bestEffort := by
  cases h with
  | opened hs | ahead _ _ hs | delayed _ _ _ _ hs | awaited _ _ _ _ _ hs | started _ _ _ _ _ hs
  | refused _ hs | kept hs | rejected hs | shown hs | expired _ _ _ hs => exact hs.bestEffort
  | granted _ _ _ _ hs | planned _ _ hs => exact hs.bestEffort.trans (bestEffort_booked ..)
  | launched _ hs =>
      obtain ⟨_, _, _, _, _, _, hlaunch⟩ := launch_books (s.booked ..) ..
      exact hs.bestEffort.trans (hlaunch.trans (bestEffort_booked ..))

section BestEffort

variable (placements : Dictionary Int Placement)

/-- Puts one best-effort job on a timeline, if it is placed. -/
def occupyPlaced (tl : Timeline) (e : Int × OrdinalSet) : Timeline :=
  match placements.get? e.1 with
  | some p => tl.occupy p.assignment.start p.heldUntil e.2
  | none => tl

theorem occupyBestEffort_timeline (s : PassState) :
    s.occupyBestEffort.timeline = s.bestEffort.foldl (occupyPlaced s.placements) s.timeline :=
  rfl

theorem foldl_occupyPlaced (entries : List (Int × OrdinalSet)) (tl : Timeline) :
    entries.foldl (occupyPlaced placements) tl = tl.occupyAll (entries.filterMap fun e =>
      (placements.get? e.1).map fun p => ⟨p.assignment.start, p.heldUntil, e.2⟩) := by
  induction entries generalizing tl with
  | nil => rfl
  | cons e rest ih =>
      rw [List.foldl_cons, ih, occupyPlaced, List.filterMap_cons]
      cases placements.get? e.1 <;> rfl

theorem wellFormed_foldl_occupyPlaced (entries : List (Int × OrdinalSet)) (tl : Timeline)
    (h : tl.WellFormed) : (entries.foldl (occupyPlaced placements) tl).WellFormed := by
  rw [foldl_occupyPlaced]
  exact Timeline.wellFormed_occupyAll h _

theorem free_foldl_occupyPlaced (entries : List (Int × OrdinalSet)) (tl : Timeline) (h : tl.WellFormed) :
    (entries.foldl (occupyPlaced placements) tl).Free o t ↔ tl.Free o t ∧
      ∀ e ∈ entries, ∀ p, placements.get? e.1 = some p →
        ¬ (p.assignment.start ≤ t ∧ t ≤ p.heldUntil ∧ o ∈ e.2) := by
  rw [foldl_occupyPlaced, Timeline.free_occupyAll h]
  refine and_congr_right fun _ => ⟨?_, ?_⟩
  · intro h e he p hp
    exact h _ (List.mem_filterMap.2 ⟨e, he, by rw [hp, Option.map_some]⟩)
  · intro h c hc
    obtain ⟨e, he, hc⟩ := List.mem_filterMap.1 hc
    obtain ⟨p, hp, rfl⟩ := Option.map_eq_some_iff.1 hc
    exact h e he p hp

end BestEffort

section Books

/-- Every commitment takes what it holds from the timeline, and no two of them hold the same. -/
structure Books (s : PassState) : Prop where
  wellFormed : s.timeline.WellFormed
  taken : ∀ c ∈ s.commitments, ∀ o t, c.placement.Holds o t → ¬ s.timeline.Free o t
  apart : s.commitments.Pairwise fun c d =>
    ∀ o t, c.placement.Holds o t → ¬ d.placement.Holds o t

theorem Commits.free (h : Commits f s s' task c) (hs : s.timeline.WellFormed) :
    s'.timeline.Free o t ↔ s.timeline.Free o t ∧ ¬ c.placement.Holds o t := by
  rw [h.timeline, Timeline.free_occupy hs]
  simp only [Placement.Holds, ← and_assoc, and_comm]

theorem Commits.mem_freeOver (h : Commits f s s' task c)
    (ho : o ∈ c.placement.assignment.resources) :
    o ∈ s.timeline.freeOver c.placement.assignment.start c.placement.heldUntil := by
  obtain ⟨a, hfinds, hwalltime⟩ := h.isFound
  have hpick := pick?_of_attempt hfinds.isFound
  rw [hwalltime, ← h.heldUntil] at hpick
  exact Candidate.pick?_subset hpick o ho

/-- What a commitment holds was free. -/
theorem Commits.free_of_holds (h : Commits f s s' task c) (hs : s.timeline.WellFormed)
    (hholds : c.placement.Holds o t) : s.timeline.Free o t :=
  ((Timeline.mem_freeOver hs).1 (h.mem_freeOver hholds.1)).2.2.2 t hholds.2.1 hholds.2.2

/-- A commitment holds its resources at its start. -/
theorem Commits.holds_start (h : Commits f s s' task c) (hs : s.timeline.WellFormed)
    (ho : o ∈ c.placement.assignment.resources) :
    c.placement.Holds o c.placement.assignment.start :=
  ⟨ho, le_refl _, ((Timeline.mem_freeOver hs).1 (h.mem_freeOver ho)).2.1⟩

theorem Step.wellFormed (h : Step f s s' task) (hs : s.timeline.WellFormed) :
    s'.timeline.WellFormed := by
  rcases h.cases_placements with ⟨c, hc⟩ | ⟨job, a, hexpires⟩ | ⟨htimeline | htimeline, _, _, _, _, _⟩
  · rw [hc.timeline]
    exact Timeline.wellFormed_occupy hs _ _ _
  · rw [hexpires.timeline]
    exact hs
  · rw [htimeline]
    exact hs
  · rw [htimeline]
    exact wellFormed_foldl_occupyPlaced _ _ _ hs

theorem Step.commitments (h : Step f s s' task) :
    (∃ c, Commits f s s' task c) ∨ s'.commitments = s.commitments := by
  rcases h.cases_placements with hc | ⟨job, a, hexpires⟩ | hkeeps
  · exact Or.inl hc
  · exact Or.inr hexpires.commitments
  · exact Or.inr hkeeps.commitments

/-- Nothing becomes free again. -/
theorem Step.free_of_free (h : Step f s s' task) (hs : s.timeline.WellFormed)
    (hfree : s'.timeline.Free o t) : s.timeline.Free o t := by
  rcases h.cases_placements with ⟨c, hc⟩ | ⟨job, a, hexpires⟩ | ⟨htimeline | htimeline, _, _, _, _, _⟩
  · exact ((hc.free hs).1 hfree).1
  · rw [← hexpires.timeline]
    exact hfree
  · rw [← htimeline]
    exact hfree
  · rw [htimeline] at hfree
    exact ((free_foldl_occupyPlaced _ _ _ hs).1 hfree).1

theorem Step.books (h : Step f s s' task) (hs : s.Books) : s'.Books := by
  have hwell := h.wellFormed hs.wellFormed
  have htaken : ∀ c ∈ s.commitments, ∀ o t, c.placement.Holds o t → ¬ s'.timeline.Free o t := by
    intro c hc o t hholds hfree
    exact hs.taken c hc o t hholds (h.free_of_free hs.wellFormed hfree)
  rcases h.commitments with ⟨c, hc⟩ | hsame
  · refine ⟨hwell, ?_, ?_⟩
    · rw [hc.commitments]
      intro d hd o t hholds hfree
      rcases List.mem_append.1 hd with hd | hd
      · exact htaken d hd o t hholds hfree
      · rw [List.mem_singleton] at hd
        exact ((hc.free hs.wellFormed).1 hfree).2 (hd ▸ hholds)
    · rw [hc.commitments, List.pairwise_append]
      refine ⟨hs.apart, List.pairwise_singleton _ _, fun d hd e he o t hholds hholds' => ?_⟩
      rw [List.mem_singleton] at he
      exact hs.taken d hd o t hholds (hc.free_of_holds hs.wellFormed (he ▸ hholds'))
  · refine ⟨hwell, ?_, ?_⟩
    · rw [hsame]
      exact htaken
    · rw [hsame]
      exact hs.apart

theorem books_run (f : Frame) (tasks : List Task) (s : PassState) (hs : s.Books) :
    (tasks.foldl (perform f) s).Books := by
  induction tasks generalizing s with
  | nil => exact hs
  | cons task rest ih => exact ih _ ((perform_step f s task).books hs)

theorem books_start (f : Frame) (m : Matcher) : (start f m).Books := by
  have hloaded := loaded_start f m
  refine ⟨hloaded.wellFormed, ?_, ?_⟩
  · rw [hloaded.commitments]
    intro c hc
    cases hc
  · rw [hloaded.commitments]
    exact List.Pairwise.nil

/-- What a run commits was free when the run began, and it is committed for the job of a task. -/
theorem new_commitment_of_run (f : Frame) (tasks : List Task) (s : PassState)
    (hs : s.timeline.WellFormed) :
    ∃ new, (tasks.foldl (perform f) s).commitments = s.commitments ++ new ∧
      ∀ c ∈ new, (∃ task ∈ tasks, task.job? = some c.job) ∧
        c.placement.heldUntil =
          f.heldOnTimeline c.placement.assignment.start c.placement.assignment.walltime ∧
        ∀ o t, c.placement.Holds o t → s.timeline.Free o t := by
  induction tasks generalizing s with
  | nil => exact ⟨[], by simp⟩
  | cons task rest ih =>
      have hstep := perform_step f s task
      obtain ⟨new, hnew, hall⟩ := ih (perform f s task) (hstep.wellFormed hs)
      have hrest : ∀ c ∈ new, (∃ task' ∈ task :: rest, task'.job? = some c.job) ∧
          c.placement.heldUntil =
            f.heldOnTimeline c.placement.assignment.start c.placement.assignment.walltime ∧
          ∀ o t, c.placement.Holds o t → s.timeline.Free o t := by
        intro c hc
        obtain ⟨⟨task', htask', hjob⟩, hheld, hfree⟩ := hall c hc
        exact ⟨⟨task', List.mem_cons_of_mem _ htask', hjob⟩, hheld,
          fun o t hholds => hstep.free_of_free hs (hfree o t hholds)⟩
      rcases hstep.commitments with ⟨c, hc⟩ | hsame
      · refine ⟨c :: new, ?_, fun d hd => ?_⟩
        · rw [List.foldl_cons, hnew, hc.commitments, List.append_assoc, List.singleton_append]
        · rcases List.mem_cons.1 hd with rfl | hd
          · exact ⟨⟨task, List.mem_cons_self, hc.job⟩, hc.heldUntil,
              fun o t => hc.free_of_holds hs⟩
          · exact hrest d hd
      · exact ⟨new, by rw [List.foldl_cons, hnew, hsame], hrest⟩

/-- Every commitment of a run has its task. -/
theorem task_of_commitment {earlier later : List Commitment} (tasks : List Task) (s : PassState)
    (hs : s.timeline.WellFormed) (hlength : s.commitments.length ≤ earlier.length)
    (h : (tasks.foldl (perform f) s).commitments = earlier ++ c :: later) :
    ∃ front task back, tasks = front ++ task :: back ∧
      (front.foldl (perform f) s).commitments = earlier ∧
      Commits f (front.foldl (perform f) s) (perform f (front.foldl (perform f) s) task) task c := by
  induction tasks generalizing s with
  | nil =>
      have : earlier.length < s.commitments.length := by
        rw [List.foldl_nil] at h
        simp [h]
      omega
  | cons task rest ih =>
      have hstep := perform_step f s task
      have hwell := hstep.wellFormed hs
      have goOn : (perform f s task).commitments.length ≤ earlier.length →
          ∃ front task' back, task :: rest = front ++ task' :: back ∧
            (front.foldl (perform f) s).commitments = earlier ∧
            Commits f (front.foldl (perform f) s)
              (perform f (front.foldl (perform f) s) task') task' c := by
        intro hshorter
        obtain ⟨front, task', back, hrest, hfront⟩ := ih (perform f s task) hwell hshorter h
        exact ⟨task :: front, task', back, by rw [hrest, List.cons_append], hfront⟩
      rcases hstep.commitments with ⟨d, hd⟩ | hsame
      · by_cases hshorter : (perform f s task).commitments.length ≤ earlier.length
        · exact goOn hshorter
        · obtain ⟨new, hnew, _⟩ := new_commitment_of_run f rest (perform f s task) hwell
          rw [List.foldl_cons, hnew, hd.commitments, List.append_assoc, List.singleton_append] at h
          rw [hd.commitments, List.length_append, List.length_singleton] at hshorter
          obtain ⟨hearlier, hrest⟩ := List.append_inj h (by omega)
          cases hrest
          exact ⟨[], task, rest, rfl, hearlier, hd⟩
      · exact goOn (by rw [hsame]; exact hlength)

end Books

end PassState
end ClusterPlan
