import ClusterPlan.Proofs.Pass.Reached

/-!
What a search for a place leaves behind. Without success it leaves no trace: alternatives, starts and
quotas were tried, and nothing was booked for any of them. With success there is one booking, and all its
entries speak of the same alternative, start and resources.
-/

namespace ClusterPlan

/-- The ways in which a pass looks for a place for a job. -/
inductive Search where
  /-- At the start that the job asks for. -/
  | reservation
  | now
  | earliest
  /-- The turn of a normal job, with the wish for power that may follow. -/
  | turn

namespace PassState

variable {f : Frame} {s s' : PassState} {job : Job} {task : Task}

/-- The state after a search, and what the search says about whether the job is placed. -/
def look (f : Frame) (s : PassState) (job : Job) : Search → PassState × Option Bool
  | .reservation => (placeReservation f s job, none)
  | .now =>
      let candidates := matched job (s.matcher.forJob f.catalog job).2
      let (s, placed) := placeNow f job candidates .notEnough (s.asked f job)
      (s, some placed)
  | .earliest =>
      let candidates := matched job (s.matcher.forJob f.catalog job).2
      let (s, placed) := placeEarliest f job candidates (s.asked f job)
      (s, some placed)
  | .turn => (consider f s job, none)

/-- The entries of one placement, all of the same alternative, start and resources. -/
structure Adds (f : Frame) (s s' : PassState) (job : Job) (p : Placement) : Prop where
  alternative : ∃ a ∈ job.alternatives, p.assignment.alternative = a.id ∧
    p.assignment.walltime = a.walltime
  heldUntil : p.heldUntil = f.heldOnTimeline p.assignment.start p.assignment.walltime
  placements : s'.placements = (job.id, p) :: s.placements
  timeline : s'.timeline =
    s.timeline.occupy p.assignment.start p.heldUntil p.assignment.resources
  commitments : s'.commitments = s.commitments ++ [⟨job, p⟩]
  /-- The row that is persisted already is not written again. -/
  newRows : s'.newRows f = s.newRows f ++
    [Commitment.row f.catalog ⟨job, p⟩].filter fun row =>
      !(f.row? job.id).any fun old => old.samePlacement row
  claimed : ∀ claim, f.claim? job p.assignment.resources p.assignment.start p.heldUntil = some claim →
    s'.ledger = (s.ledger.record claim).1 ∧ s'.claims = (job.id, s.ledger.next) :: s.claims
  unclaimed : f.claim? job p.assignment.resources p.assignment.start p.heldUntil = none →
    s'.ledger = s.ledger ∧ s'.claims = s.claims
  reservations : s'.reservations = s.reservations
  bestEffort : s'.bestEffort = s.bestEffort

/-- One decision about the job, and everything or nothing of a placement. -/
structure AllOrNothing (f : Frame) (s s' : PassState) (job : Job) : Prop where
  decided : ∃ d, s'.decisions = s.decisions ++ [d] ∧ d.job = job.id ∧
    d.outcome.isPlaced = (s'.placements.get? job.id).isSome
  missed : s'.placements.get? job.id = none → Untouched f s s'
  placed : ∀ p, s'.placements.get? job.id = some p → Adds f s s' job p

section Tasks

/-- A task that looks for a place for the job. -/
def Looks (s : PassState) (task : Task) (job : Job) : Prop :=
  task.Reserves s job ∨ task = .consider job

theorem job?_of_looks (h : s.Looks task job) : task.job? = some job := by
  rcases h with h | rfl
  · exact job?_of_reserves h
  · rfl

theorem not_looks_of_reserved {j : Job} {a : Assignment}
    (ha : s.reservations.get? j.id = some a) : ¬ s.Looks (.review j) job := by
  rintro (h | h)
  · exact not_reserves_of_reserved ha h
  · cases h

theorem decisions_launched (s : PassState) (job : Job) (c : Candidate) (resources : OrdinalSet) :
    ∃ d, (s.launch job c resources).decisions = s.decisions ++ [d] ∧ d.job = job.id ∧
      d.outcome.isPlaced = true := by
  simp only [launch]
  cases job.isBestEffort with
  | true => exact ⟨_, rfl, rfl, rfl⟩
  | false =>
      simp only [Bool.false_eq_true, if_false]
      split <;> exact ⟨_, rfl, rfl, rfl⟩

/-- A task that looks for a place decides about its job, and books a place for it or nothing. -/
theorem Step.looked (h : Step f s s' task) (htask : s.Looks task job) :
    ∃ d, s'.decisions = s.decisions ++ [d] ∧ d.job = job.id ∧
      (d.outcome.isPlaced = false ∧ Untouched f s s' ∨
        d.outcome.isPlaced = true ∧ ∃ c start resources, s.Finds f job c start resources ∧
          Commits f s s' task (commitmentOf f job c start resources)) := by
  have hjob := job?_of_looks htask
  cases h with
  | opened | shown => cases hjob
  | ahead ha | expired ha | delayed ha | awaited ha | started ha =>
      exact absurd htask (not_looks_of_reserved ha)
  | refused hreserves hs =>
      cases (job?_of_reserves hreserves).symm.trans hjob
      exact ⟨_, hs.decisions, rfl, Or.inl ⟨rfl, untouched_of_decided hs⟩⟩
  | kept hs =>
      cases hjob
      exact ⟨_, hs.decisions, rfl, Or.inl ⟨rfl, untouched_of_decided hs⟩⟩
  | rejected hs =>
      cases hjob
      exact ⟨_, hs.decisions, rfl, Or.inl ⟨rfl, untouched_of_decided hs⟩⟩
  | @granted _ j c start resources hreserves _ _ hfinds hs =>
      cases (job?_of_reserves hreserves).symm.trans hjob
      have hdecisions := hs.decisions
      rw [decide, decisions_booked] at hdecisions
      exact ⟨_, hdecisions, rfl, Or.inr ⟨rfl, c, start, resources, hfinds,
        commits_of_booked hjob (unreserved_of_reserves hreserves) hfinds hs.commitments
          hs.timeline hs.placements hs.reservations hs.ledger hs.claims⟩⟩
  | @planned j c start resources _ hfinds hs =>
      cases hjob
      have hdecisions := hs.decisions
      rw [decide, decisions_booked] at hdecisions
      exact ⟨_, hdecisions, rfl, Or.inr ⟨rfl, c, start, resources, hfinds,
        commits_of_booked rfl (fun htask => Task.noConfusion htask) hfinds hs.commitments
          hs.timeline hs.placements hs.reservations hs.ledger hs.claims⟩⟩
  | @launched j c resources hfinds hs =>
      cases hjob
      obtain ⟨d, hd, hid, hplaced⟩ :=
        decisions_launched (s.booked f job c f.now resources) job c resources
      have hdecisions := hs.decisions.trans hd
      rw [decisions_booked] at hdecisions
      exact ⟨d, hdecisions, hid,
        Or.inr ⟨hplaced, c, f.now, resources, hfinds, commits_of_launched hfinds hs⟩⟩

/-- A booking for a job that has no placement adds one of everything. -/
theorem adds_of_commits {c : Candidate} {start : Int} {resources : OrdinalSet}
    (hs : Informed f s) (hbacked : Backed f s) (hfree : s.placements.get? job.id = none)
    (hfinds : s.Finds f job c start resources)
    (h : Commits f s s' task (commitmentOf f job c start resources))
    (hbest : s'.bestEffort = s.bestEffort) :
    Adds f s s' job (commitmentOf f job c start resources).placement := by
  have hcharges := h.charges hbacked.rules
  have hmatch := hfinds.isMatch
  rw [forJob_eq hs.serves, List.mem_map] at hmatch
  obtain ⟨a, ha, hc⟩ := hmatch
  obtain ⟨_, _, hid, hwalltime, _⟩ := Catalog.candidate_eq_ok hc
  constructor
  · exact ⟨a, ha, hid, hwalltime⟩
  · exact h.heldUntil
  · rw [h.placements]
    exact Dictionary.put_of_get?_none hfree _
  · exact h.timeline
  · exact h.commitments
  · rw [newRows, newRows, h.commitments, List.map_append, List.filter_append]
    rfl
  · intro claim hclaim
    have hclaim' : f.commitmentClaim? (commitmentOf f job c start resources) = some claim := hclaim
    rw [hcharges.ledger, hcharges.claims, hclaim', Option.elim_some, Option.elim_some]
    exact ⟨rfl, Dictionary.put_of_get?_none (hbacked.placed _ hfree) _⟩
  · intro hclaim
    have hclaim' : f.commitmentClaim? (commitmentOf f job c start resources) = none := hclaim
    rw [hcharges.ledger, hcharges.claims, hclaim']
    exact ⟨rfl, rfl⟩
  · exact h.reservations
  · exact hbest

theorem Step.allOrNothing (h : Step f s s' task) (htask : s.Looks task job) (hs : Informed f s)
    (hbacked : Backed f s) (hfree : s.placements.get? job.id = none) :
    AllOrNothing f s s' job := by
  obtain ⟨d, hdecisions, hid, ⟨hmissed, huntouched⟩ | ⟨hplaced, c, start, resources, hfinds,
    hcommits⟩⟩ := h.looked htask
  · have hnone : s'.placements.get? job.id = none := by rw [huntouched.placements, hfree]
    refine ⟨⟨d, hdecisions, hid, ?_⟩, fun _ => huntouched, fun p hp => ?_⟩
    · rw [hmissed, hnone]
      rfl
    · rw [hnone] at hp
      cases hp
  · have hsome : s'.placements.get? job.id =
        some (commitmentOf f job c start resources).placement := by
      rw [hcommits.placements, Dictionary.get?_put]
      exact if_pos rfl
    refine ⟨⟨d, hdecisions, hid, ?_⟩, fun hnone => ?_, fun p hp => ?_⟩
    · rw [hplaced, hsome]
      rfl
    · rw [hsome] at hnone
      cases hnone
    · rw [hsome] at hp
      cases hp
      exact adds_of_commits hs hbacked hfree hfinds hcommits h.bestEffort

end Tasks

section Searches

variable {candidates : List (Alternative × Candidate)}

theorem placeNow_told (obstacle : Obstacle) (hfree : s.placements.get? job.id = none) :
    (placeNow f job candidates obstacle s).2 =
      ((placeNow f job candidates obstacle s).1.placements.get? job.id).isSome := by
  rcases placeNow_cases f job candidates obstacle s with ⟨fits, o, h⟩ | ⟨fits, e, _, r, _, h⟩
  · rw [h]
    exact (congrArg Option.isSome hfree).symm
  · rw [h, (launch_books _ job e.2 r).2.2.1, booked, Dictionary.get?_put, if_pos rfl]
    rfl

theorem placeEarliest_told (hfree : s.placements.get? job.id = none) :
    (placeEarliest f job candidates s).2 =
      ((placeEarliest f job candidates s).1.placements.get? job.id).isSome := by
  rcases placeEarliest_cases f job candidates s with ⟨fits, note, h⟩ | ⟨fits, p, _, h⟩
  · rw [h]
    exact (congrArg Option.isSome hfree).symm
  · rw [h]
    dsimp only
    split
    · rw [(launch_books _ job p.candidate p.resources).2.2.1, booked, Dictionary.get?_put,
        if_pos rfl]
      rfl
    · rw [decide, booked, Dictionary.get?_put, if_pos rfl]
      rfl

/-- Every search is what some task does that looks for a place for the job. -/
theorem step_look (f : Frame) (s : PassState) (job : Job) (search : Search) :
    ∃ task, s.Looks task job ∧ Step f s (look f s job search).1 task := by
  have hasked : Alike s (s.asked f job) := { Alike.refl s with }
  have hmatch : ∀ e ∈ matched job (s.matcher.forJob f.catalog job).2,
      .ok e.2 ∈ (s.matcher.forJob f.catalog job).2 := fun e => mem_of_mem_matched
  cases search with
  | reservation =>
      exact ⟨.reserve job, Or.inl (Or.inl rfl), step_placeReservation (Or.inl rfl) (.refl s) rfl⟩
  | now => exact ⟨.consider job, Or.inr rfl, step_placeNow hasked hmatch .notEnough⟩
  | earliest => exact ⟨.consider job, Or.inr rfl, step_placeEarliest hasked hmatch⟩
  | turn => exact ⟨.consider job, Or.inr rfl, step_consider⟩

end Searches

/-- In every state of a pass, a search for a place for a job that has none books one placement, whole, or
leaves no trace of what it tried. -/
theorem look_allOrNothing {f : Frame} {uses : List Matcher.Use} {s : PassState}
    (hapart : Matcher.SnapshotsApart (f.catalog :: uses.map Matcher.Use.catalog))
    (hs : Reached f (.after uses) s) (job : Job) (hfree : s.placements.get? job.id = none)
    (search : Search) :
    AllOrNothing f s (look f s job search).1 job ∧
      ∀ told, (look f s job search).2 = some told →
        told = ((look f s job search).1.placements.get? job.id).isSome := by
  obtain ⟨task, htask, hstep⟩ := step_look f s job search
  refine ⟨hstep.allOrNothing htask (hs.informed (Matcher.ready_after hapart)) hs.backed hfree, ?_⟩
  cases search with
  | reservation | turn => nofun
  | now =>
      rintro _ ⟨⟩
      exact placeNow_told (s := s.asked f job) .notEnough hfree
  | earliest =>
      rintro _ ⟨⟩
      exact placeEarliest_told (s := s.asked f job) hfree

/-- A job for two resources, one of which is in use: it cannot start now, and it can start later. -/
theorem look_allOrNothing_busyFirst :
    let s := perform busyFirstFrame (start busyFirstFrame .empty) .openQueue
    let job := exampleJob 6 [] 2
    let missed := look busyFirstFrame s job .now
    let placed := look busyFirstFrame s job .earliest
    s.placements.get? job.id = none ∧
      missed.2 = some false ∧ Untouched busyFirstFrame s missed.1 ∧
      placed.2 = some true ∧
      Adds busyFirstFrame s placed.1 job ⟨130, ⟨60, 121, 10, .ofIds [0, 1]⟩⟩ := by
  have hreached : Reached busyFirstFrame (.after [])
      (perform busyFirstFrame (start busyFirstFrame .empty) .openQueue) :=
    .performed .openQueue .start
  have hsearch := look_allOrNothing (Matcher.snapshotsApart_singleton _) hreached (exampleJob 6 [] 2)
    (by decide +kernel)
  exact ⟨by decide +kernel, by decide +kernel, (hsearch .now).1.missed (by decide +kernel),
    by decide +kernel, (hsearch .earliest).1.placed _ (by decide +kernel)⟩

end PassState
end ClusterPlan
