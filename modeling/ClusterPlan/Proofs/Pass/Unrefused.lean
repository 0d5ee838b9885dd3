import ClusterPlan.Proofs.Matching.Declared
import ClusterPlan.Proofs.Pass.Reached

/-!
A commitment of what was found is never refused. A search goes by what the matcher answers, a commitment
by what the job declares; both come to the same window, and nothing that a job does before it is placed
touches the timeline or the ledger. So the handlers may do anything where a commitment is refused: they
never come there.
-/

namespace ClusterPlan.PassState

variable {f : Frame} {m : Matcher} {s s' s'' : PassState} {job : Job} {a : Alternative} {c : Candidate}
  {start : Int} {resources : OrdinalSet}

section Declared

theorem commit_declared (h : c.Answers a) :
    s.commit f job a.declared start resources = s.commit f job c start resources := by
  simp only [commit, Alternative.declared, h.id, h.walltime]

theorem booked_declared (h : c.Answers a) :
    s.booked f job a.declared start resources = s.booked f job c start resources := by
  simp only [booked, Alternative.declared, h.id, h.walltime]

theorem launch_declared (h : c.Answers a) :
    s.launch job a.declared resources = s.launch job c resources := by
  simp only [launch, Alternative.declared, h.id]

/-- What an attempt found can be booked for the alternative as it is declared. -/
theorem commit_declared_of_attempt (h : c.Answers a)
    (hfound : s.attempt f job c start = .found resources) :
    s.commit f job a.declared start resources = .ok (s.booked f job c start resources) :=
  (commit_declared h).trans (commit_of_attempt hfound)

end Declared

section Matchers

theorem place_matcher (f : Frame) (job : Job) (candidates : List (Alternative × Candidate))
    (s : PassState) : (place f job candidates s).1.matcher = s.matcher := by
  have hplaced : ∀ fits c start r,
      (({ s with fits := fits }.booked f job c start r).launch job c r).matcher = s.matcher :=
    fun fits c start r => (launch_memory ..).matcher.trans (booked_memory ..).matcher
  simp only [place]
  split
  · rcases placeNow_cases f job candidates .notEnough s with ⟨_, _, h⟩ | ⟨fits, e, _, r, _, h⟩
    · rw [h]
      rfl
    · rw [h]
      exact hplaced fits e.2 f.now r
  · rcases placeEarliest_cases f job candidates s with ⟨_, _, h⟩ | ⟨fits, p, _, h⟩
    · rw [h]
      rfl
    · rw [h]
      simp only
      split
      · exact hplaced fits p.candidate p.start p.resources
      · exact (booked_memory { s with fits := fits } f job p.candidate p.start p.resources).matcher

/-- What a task may do to the matcher: ask it about one job. -/
def Asked (f : Frame) (s s' : PassState) : Prop :=
  s'.matcher = s.matcher ∨ ∃ job, s'.matcher = (s.matcher.forJob f.catalog job).1

theorem asked_placeReservation (f : Frame) (s : PassState) (job : Job) :
    Asked f s (placeReservation f s job) := by
  simp only [placeReservation]
  split
  · exact Or.inl rfl
  · split
    · exact Or.inl rfl
    · exact Or.inr ⟨job, (placeReserved_memory ..).matcher⟩

theorem asked_reviewReservation (f : Frame) (s : PassState) (job : Job) :
    Asked f s (reviewReservation f s job) := by
  simp only [reviewReservation]
  split
  · exact asked_placeReservation f (s.notify (.reservationWithoutRow job.id)) job
  · split
    · exact Or.inl rfl
    · split
      · exact Or.inl rfl
      · simp only [startReservation]
        split
        · split <;> exact Or.inl rfl
        · exact Or.inl rfl

theorem asked_consider (f : Frame) (s : PassState) (job : Job) : Asked f s (consider f s job) := by
  simp only [consider]
  split
  · exact Or.inl rfl
  · refine Or.inr ⟨job, ?_⟩
    split
    · simp only [decideUnmatched]
      split <;> rfl
    · split
      · exact place_matcher ..
      · exact (wishWakeup_memory ..).matcher.trans (place_matcher ..)

theorem asked_perform (f : Frame) (s : PassState) (task : Task) : Asked f s (perform f s task) := by
  cases task with
  | review job => exact asked_reviewReservation f s job
  | reserve job => exact asked_placeReservation f s job
  | consider job => exact asked_consider f s job
  | openQueue | showBestEffort => exact Or.inl rfl

theorem Reached.timed (h : Reached f m s) (hm : m.Timed) : s.matcher.Timed := by
  induction h with
  | start =>
      rw [(memory_start f m).matcher]
      exact hm.bind f.catalog
  | performed task _ ih =>
      rcases asked_perform f _ task with hsame | ⟨job, hasked⟩
      · rw [hsame]
        exact ih
      · rw [hasked]
        exact ih.forJob job
  | notified n _ ih => exact ih

theorem Reached.wellFormed (h : Reached f m s) : s.timeline.WellFormed := by
  induction h with
  | start => exact (loaded_start f m).wellFormed
  | performed task _ ih => exact (perform_step f _ task).wellFormed ih
  | notified n _ ih => exact ih

end Matchers

section Searching

/-- What may happen while one job is looked at and not yet placed: the matcher is asked about it, its
alternatives are searched for, and something about their shapes is remembered. -/
inductive Searching (f : Frame) (job : Job) (s : PassState) : PassState → Prop where
  | refl : Searching f job s s
  | asked {s' : PassState} : Searching f job s s' → Searching f job s (s'.asked f job)
  | sought {s' : PassState} (a : Alternative) (c : Candidate) : Searching f job s s' →
      Searching f job s (s'.earliestFit f job a c).1
  | remembered {s' : PassState} (shape : Shape) (room : FirstRoom) : Searching f job s s' →
      Searching f job s (s'.remember shape room)

theorem Searching.alike (h : Searching f job s s') : Alike s s' := by
  induction h with
  | refl => exact .refl s
  | asked _ ih => exact ih.trans { Alike.refl _ with }
  | sought a c _ ih => exact ih.trans { Alike.refl _ with }
  | remembered shape room _ ih => exact ih.trans { Alike.refl _ with }

/-- What was found at `s` can be committed at `s'`, for the window that was free at `s`. -/
structure Committable (f : Frame) (s s' : PassState) (job : Job) (a : Alternative) (c : Candidate)
    (start : Int) (resources : OrdinalSet) : Prop where
  /-- The window from the walltime that is declared is the one from the walltime that was matched. -/
  window : f.heldOnTimeline start a.walltime = f.heldOnTimeline start c.walltime
  tested : c.pick? (s.timeline.freeOver start (f.heldOnTimeline start c.walltime)) = some resources
  free : ∀ o ∈ resources, ∀ t, start ≤ t → t ≤ f.heldOnTimeline start c.walltime → s.timeline.Free o t
  accepted : s'.commit f job a.declared start resources =
    .ok (s'.booked f job a.declared start resources)
  occupied : ∀ o t, (s'.booked f job a.declared start resources).timeline.Free o t ↔
    s.timeline.Free o t ∧ ¬ (start ≤ t ∧ t ≤ f.heldOnTimeline start c.walltime ∧ o ∈ resources)

theorem committable_of_attempt (hs : s.timeline.WellFormed) (hanswers : c.Answers a)
    (hsearch : Searching f job s s') (hfound : s.attempt f job c start = .found resources) :
    Committable f s s' job a c start resources := by
  have halike := hsearch.alike
  have hpick := pick?_of_attempt hfound
  have hfound' : s'.attempt f job c start = .found resources := halike.attempt_eq.trans hfound
  refine ⟨by rw [hanswers.walltime], hpick, fun o ho t hfirst hlast => ?_, ?_, fun o t => ?_⟩
  · exact ((Timeline.mem_freeOver hs).1 (Candidate.pick?_subset hpick o ho)).2.2.2 t hfirst hlast
  · rw [booked_declared hanswers]
    exact commit_declared_of_attempt hanswers hfound'
  · rw [booked_declared hanswers, booked, halike.timeline]
    exact Timeline.free_occupy hs

end Searching

section Handlers

/-! The three handlers as they take id and walltime from what is declared, with what they do after a
refused commitment left open. -/

/-- `placeNow` with `refused` for a commitment that is refused. -/
def placeNowOr (refused : Dimension → PassState → PassState × Bool) (f : Frame) (job : Job) :
    List (Alternative × Candidate) → Obstacle → PassState → PassState × Bool
  | [], obstacle, s => (s.keepWaiting job (.cannotStart obstacle), false)
  | (a, c) :: rest, obstacle, s =>
      let shape := a.shape job.filter
      if s.hasNoRoomNow f shape then placeNowOr refused f job rest obstacle s
      else
        match s.attempt f job c f.now with
        | .found resources =>
            match s.commit f job a.declared f.now resources with
            | .ok s => (s.launch job a.declared resources, true)
            | .error d => refused d s
        | .noRoom => placeNowOr refused f job rest obstacle (s.remember shape (.at (f.now + 1)))
        | .overQuota d => placeNowOr refused f job rest (.fault (.quota d)) s

/-- `bestProposal` with proposals of what is declared. -/
def bestDeclared (f : Frame) (job : Job) :
    List (Alternative × Candidate) → Option Proposal → Option Dimension → PassState →
      PassState × Option Proposal × Option Dimension
  | [], best, hit, s => (s, best, hit)
  | (a, c) :: rest, best, hit, s =>
      match s.earliestFit f job a c with
      | (s, .found start resources) =>
          bestDeclared f job rest (some (Proposal.better ⟨a.declared, start, resources⟩ best)) hit s
      | (s, .overQuota d) => bestDeclared f job rest best (some d) s
      | (s, .noRoom) => bestDeclared f job rest best hit s

/-- `placeEarliest` with `refused` for a commitment that is refused. -/
def placeEarliestOr (refused : Dimension → PassState → PassState × Bool) (f : Frame) (job : Job)
    (candidates : List (Alternative × Candidate)) (s : PassState) : PassState × Bool :=
  match bestDeclared f job candidates none none s with
  | (s, none, some d) => (s.keepWaiting job (.notScheduled (.fault (.quota d))), false)
  | (s, none, none) => (s.keepWaiting job (.notScheduled .noRoom), false)
  | (s, some p, _) =>
      match s.commit f job p.candidate p.start p.resources with
      | .error d => refused d s
      | .ok s =>
          if p.start = f.now then (s.launch job p.candidate p.resources, true)
          else
            (s.decide job .scheduled .waiting .none (.expected p.start p.candidate.id), true)

/-- `placeReserved` with `refused` for a commitment that is refused. -/
def placeReservedOr (refused : Dimension → PassState → PassState) (f : Frame) (job : Job) (start : Int) :
    List (Alternative × Except Error Candidate) → Obstacle → PassState → PassState
  | [], obstacle, s => s.refuse job (.reservationRefused obstacle)
  | (_, .error e) :: rest, _, s => placeReservedOr refused f job start rest (.fault e) s
  | (a, .ok c) :: rest, _, s =>
      match s.attempt f job c start with
      | .found resources =>
          match s.commit f job a.declared start resources with
          | .ok s => s.decide job .scheduled .waiting .scheduled (.reservationPlaced start a.id)
          | .error d => refused d s
      | .noRoom => placeReservedOr refused f job start rest (.notEnoughAt start a.id) s
      | .overQuota d => placeReservedOr refused f job start rest (.fault (.quota d)) s

variable {candidates : List (Alternative × Candidate)}

theorem placeNowOr_eq (refused : Dimension → PassState → PassState × Bool)
    (h : ∀ e ∈ candidates, e.2.Answers e.1) (obstacle : Obstacle) (s : PassState) :
    placeNowOr refused f job candidates obstacle s = placeNow f job candidates obstacle s := by
  induction candidates generalizing obstacle s with
  | nil => rfl
  | cons e rest ih =>
      obtain ⟨a, c⟩ := e
      obtain ⟨hanswers, hrest⟩ := List.forall_mem_cons.1 h
      simp only [placeNowOr, placeNow]
      split
      · exact ih hrest obstacle s
      · cases hattempt : s.attempt f job c f.now with
        | found resources =>
            simp only [commit_declared_of_attempt hanswers hattempt, commit_of_attempt hattempt,
              launch_declared hanswers]
        | noRoom => exact ih hrest obstacle _
        | overQuota d => exact ih hrest _ s

/-- A proposal without the groups of its candidate. -/
def bare (p : Proposal) : Proposal := ⟨⟨p.candidate.id, p.candidate.walltime, []⟩, p.start, p.resources⟩

theorem bare_of_answers (h : c.Answers a) (start : Int) (resources : OrdinalSet) :
    bare ⟨c, start, resources⟩ = ⟨a.declared, start, resources⟩ := by
  rw [bare, Alternative.declared, h.id, h.walltime]

/-- Proposals are compared by their ends, for which groups do not matter. -/
theorem bare_better (p : Proposal) (best : Option Proposal) :
    bare (p.better best) = (bare p).better (best.map bare) := by
  cases best with
  | none => rfl
  | some old =>
      have hlast : ∀ q : Proposal, (bare q).last = q.last := fun _ => rfl
      simp only [Proposal.better, Option.map_some, hlast]
      split <;> rfl

theorem bestDeclared_eq (h : ∀ e ∈ candidates, e.2.Answers e.1) (best : Option Proposal)
    (hit : Option Dimension) (s : PassState) :
    bestDeclared f job candidates (best.map bare) hit s =
      ((bestProposal f job candidates best hit s).1,
        (bestProposal f job candidates best hit s).2.1.map bare,
        (bestProposal f job candidates best hit s).2.2) := by
  induction candidates generalizing best hit s with
  | nil => rfl
  | cons e rest ih =>
      obtain ⟨a, c⟩ := e
      obtain ⟨hanswers, hrest⟩ := List.forall_mem_cons.1 h
      obtain ⟨s', fit, hfit⟩ : ∃ s' fit, s.earliestFit f job a c = (s', fit) := ⟨_, _, rfl⟩
      simp only [bestDeclared, bestProposal, hfit]
      cases fit with
      | found start resources =>
          simp only
          rw [← bare_of_answers hanswers, ← bare_better, ← ih hrest]
          rfl
      | noRoom => exact ih hrest best hit s'
      | overQuota d => exact ih hrest best (some d) s'

theorem placeEarliestOr_eq (refused : Dimension → PassState → PassState × Bool)
    (h : ∀ e ∈ candidates, e.2.Answers e.1) (s : PassState) :
    placeEarliestOr refused f job candidates s = placeEarliest f job candidates s := by
  obtain ⟨fits, best, hit, hsearch, hbest⟩ := bestProposal_proposes f job candidates s
  have hdeclared := @bestDeclared_eq f job candidates h none none s
  rw [hsearch, Option.map_none] at hdeclared
  simp only [placeEarliestOr, placeEarliest, hsearch, hdeclared]
  cases best with
  | none => cases hit <;> rfl
  | some p =>
      obtain ⟨_, e, he, hcand, hfound⟩ := hbest p rfl
      have hanswers := h e he
      rw [← hcand] at hanswers hfound
      have hfound' : ({ s with fits := fits } : PassState).attempt f job p.candidate p.start =
          .found p.resources := hfound
      have hbare : bare p = ⟨e.1.declared, p.start, p.resources⟩ :=
        bare_of_answers hanswers p.start p.resources
      simp only [Option.map_some, hbare, commit_declared_of_attempt hanswers hfound',
        commit_of_attempt hfound', launch_declared hanswers]
      rw [Alternative.declared, hanswers.id]

theorem placeReservedOr_eq (refused : Dimension → PassState → PassState)
    {results : List (Alternative × Except Error Candidate)}
    (h : ∀ a c, (a, .ok c) ∈ results → c.Answers a) (obstacle : Obstacle) (s : PassState) :
    placeReservedOr refused f job start results obstacle s =
      placeReserved f job start (results.map Prod.snd) obstacle s := by
  induction results generalizing obstacle with
  | nil => rfl
  | cons e rest ih =>
      obtain ⟨a, result⟩ := e
      have hrest := ih fun a c hmem => h a c (List.mem_cons_of_mem _ hmem)
      cases result with
      | error e => exact hrest (.fault e)
      | ok c =>
          have hanswers := h a c List.mem_cons_self
          simp only [placeReservedOr, placeReserved, List.map_cons]
          cases hattempt : s.attempt f job c start with
          | found resources =>
              simp only [commit_declared_of_attempt hanswers hattempt, commit_of_attempt hattempt,
                hanswers.id]
          | noRoom =>
              simp only [hanswers.id]
              exact hrest _
          | overQuota d => exact hrest _

end Handlers

/-- The matcher has an answer for the alternative, asked about it alone or with all those of the job. -/
def Resolves (s : PassState) (f : Frame) (job : Job) (a : Alternative) (c : Candidate) : Prop :=
  (s.matcher.candidate f.catalog job.filter a).2 = .ok c ∨
    (a, .ok c) ∈ job.alternatives.zip (s.matcher.forJob f.catalog job).2

theorem answers_of_resolves (hs : s.matcher.Timed) (h : s.Resolves f job a c) : c.Answers a := by
  rcases h with halone | hamong
  · exact (hs.candidate a).2 c halone
  · exact Matcher.answers_of_mem_zip hs hamong

/-- From `s` on, no commitment of what is found for the job is refused. -/
structure Unrefused (f : Frame) (s : PassState) (job : Job) : Prop where
  /-- Whatever an attempt or a search finds, however many searches of the job come before and after. -/
  committable : ∀ a c, s.Resolves f job a c → ∀ s' s'', Searching f job s s' →
    Searching f job s' s'' → ∀ start resources,
      s'.attempt f job c start = .found resources ∨
        (s'.earliestFit f job a c).2 = .found start resources →
      Committable f s' s'' job a c start resources
  /-- No handler comes to where a commitment is refused, whatever it would do there. -/
  reserved : ∀ refused start, placeReservedOr refused f job start
      (job.alternatives.zip (s.matcher.forJob f.catalog job).2) .unresolved (s.asked f job) =
    placeReserved f job start (s.matcher.forJob f.catalog job).2 .unresolved (s.asked f job)
  now : ∀ refused, placeNowOr refused f job (matched job (s.matcher.forJob f.catalog job).2)
      .notEnough (s.asked f job) =
    placeNow f job (matched job (s.matcher.forJob f.catalog job).2) .notEnough (s.asked f job)
  earliest : ∀ refused, placeEarliestOr refused f job
      (matched job (s.matcher.forJob f.catalog job).2) (s.asked f job) =
    placeEarliest f job (matched job (s.matcher.forJob f.catalog job).2) (s.asked f job)

/-- At every point of a pass and for every job, what is found can be committed. -/
theorem unrefused_of_reached {uses : List Matcher.Use} (hs : Reached f (.after uses) s) (job : Job) :
    Unrefused f s job := by
  have htimed := hs.timed (Matcher.timed_after uses)
  have hmatched : ∀ e ∈ matched job (s.matcher.forJob f.catalog job).2, e.2.Answers e.1 := by
    intro e he
    obtain ⟨⟨a, result⟩, hmem, hok⟩ := List.mem_filterMap.1 he
    cases result with
    | error _ => cases hok
    | ok c =>
        cases hok
        exact Matcher.answers_of_mem_zip htimed hmem
  refine ⟨fun a c hresolves s' s'' hbefore hafter start resources hfound => ?_,
    fun refused start => ?_, fun refused => placeNowOr_eq refused hmatched _ _,
    fun refused => placeEarliestOr_eq refused hmatched _⟩
  · have hattempt : s'.attempt f job c start = .found resources :=
      hfound.elim id fun hfit => (earliestFit_found hfit).2
    have hwellFormed : s'.timeline.WellFormed := hbefore.alike.timeline ▸ hs.wellFormed
    exact committable_of_attempt hwellFormed (answers_of_resolves htimed hresolves) hafter hattempt
  · rw [placeReservedOr_eq refused fun a c => Matcher.answers_of_mem_zip htimed,
      List.map_snd_zip (Matcher.length_forJob ..).le]

section TwoLengths

/-- What a catalog of two resources has for an alternative that asks for some of them. -/
def someOfTwo (id walltime : Int) (count : Nat) : Candidate :=
  ⟨id, walltime, [⟨.ofIds [0, 1], [⟨"resource_id", count, [.single 0, .single 1]⟩]⟩]⟩

/-- Both resources are free together from 121 on. They can still be committed after the other alternative
was searched for. -/
theorem unrefused_of_reached_shortOnTwo :
    let s := perform busyFirstFrame (PassState.start busyFirstFrame .empty) .openQueue
    let s' := s.asked busyFirstFrame shortOnTwo
    let a : Alternative := ⟨51, 30, [⟨none, [⟨"resource_id", 2⟩]⟩]⟩
    let b : Alternative := ⟨50, 60, [⟨none, [⟨"resource_id", 1⟩]⟩]⟩
    let s'' := (s'.earliestFit busyFirstFrame shortOnTwo b (someOfTwo 50 60 1)).1
    Reached busyFirstFrame (.after []) s ∧
      s.Resolves busyFirstFrame shortOnTwo a (someOfTwo 51 30 2) ∧
      s'.attempt busyFirstFrame shortOnTwo (someOfTwo 51 30 2) 121 = .found (.ofIds [0, 1]) ∧
      Committable busyFirstFrame s' s'' shortOnTwo a (someOfTwo 51 30 2) 121 (.ofIds [0, 1]) := by
  intro s s' a b s''
  have hs : Reached busyFirstFrame (.after []) s := .performed .openQueue .start
  have hresolves : s.Resolves busyFirstFrame shortOnTwo a (someOfTwo 51 30 2) := Or.inl rfl
  have hfound : s'.attempt busyFirstFrame shortOnTwo (someOfTwo 51 30 2) 121 =
      .found (.ofIds [0, 1]) := by
    decide +kernel
  exact ⟨hs, hresolves, hfound, (unrefused_of_reached hs shortOnTwo).committable a _ hresolves s' s''
    (.asked .refl) (.sought b _ .refl) 121 _ (Or.inl hfound)⟩

end TwoLengths

end ClusterPlan.PassState
