import ClusterPlan.Pass.Queue

/-!
What the searches of a pass do to its state. A search books the first thing that an attempt found,
and a booking that follows an attempt cannot be refused; a search without success changes nothing
but what the pass remembers about shapes.
-/

namespace ClusterPlan.PassState

/-- The state with one placement more. -/
def booked (s : PassState) (f : Frame) (job : Job) (c : Candidate) (start : Int)
    (resources : OrdinalSet) : PassState :=
  let last := f.heldOnTimeline start c.walltime
  let placement : Placement := ⟨last, ⟨c.id, start, c.walltime, resources⟩⟩
  { s.claimStanding job resources.card start last with
    timeline := s.timeline.occupy start last resources
    placements := s.placements.put job.id placement
    commitments := s.commitments ++ [⟨job, placement⟩] }

variable {f : Frame} {s : PassState} {job : Job} {c : Candidate} {start : Int}
  {resources : OrdinalSet}

theorem claimStanding_eq (s : PassState) (job : Job) (units : Nat) (first last : Int) :
    ∃ ledger claims,
      s.claimStanding job units first last = { s with ledger := ledger, claims := claims } := by
  simp only [claimStanding]
  split
  · exact ⟨s.ledger, s.claims, rfl⟩
  · exact ⟨_, _, rfl⟩

section Attempts

theorem pick?_of_attempt (h : s.attempt f job c start = .found resources) :
    c.pick? (s.timeline.freeOver start (f.heldOnTimeline start c.walltime)) = some resources := by
  simp only [attempt] at h
  split at h
  · cases h
  · split at h
    · cases h
    · rename_i chosen hpick
      split at h
      · cases h
        exact hpick
      · split at h
        · cases h
        · cases h
          exact hpick

theorem refusal?_of_attempt (h : s.attempt f job c start = .found resources)
    (hquota : job.isWithoutQuotas = false) :
    s.ledger.refusal? ⟨s.ledger.claimant job, resources.card, start,
      f.heldOnTimeline start c.walltime⟩ = none := by
  simp only [attempt] at h
  split at h
  · cases h
  · split at h
    · cases h
    · simp only [hquota, Bool.false_eq_true, if_false] at h
      split at h
      · cases h
      · rename_i hrefusal
        cases h
        exact hrefusal

theorem windowEnd_of_attempt (h : s.attempt f job c start = .found resources) :
    Time.windowEnd start c.walltime ≤ s.timeline.horizon := by
  simp only [attempt] at h
  split at h
  · cases h
  · omega

/-- What an attempt found can be booked. -/
theorem commit_of_attempt (h : s.attempt f job c start = .found resources) :
    s.commit f job c start resources = .ok (s.booked f job c start resources) := by
  cases hquota : job.isWithoutQuotas with
  | true => simp [commit, claim, booked, claimStanding, hquota]
  | false =>
      have hrefusal := refusal?_of_attempt h hquota
      simp [commit, claim, booked, claimStanding, hquota, Ledger.reserve, hrefusal]

end Attempts

section Searches

theorem placeNow_cases (f : Frame) (job : Job) (candidates : List (Alternative × Candidate))
    (obstacle : Obstacle) (s : PassState) :
    (∃ fits o, placeNow f job candidates obstacle s =
      ({ s with fits := fits }.keepWaiting job (.cannotStart o), false)) ∨
    ∃ fits, ∃ e ∈ candidates, ∃ resources, s.attempt f job e.2 f.now = .found resources ∧
      placeNow f job candidates obstacle s =
        (({ s with fits := fits }.booked f job e.2 f.now resources).launch job e.2 resources,
          true) := by
  induction candidates generalizing obstacle s with
  | nil => exact Or.inl ⟨s.fits, obstacle, rfl⟩
  | cons e rest ih =>
      obtain ⟨a, c⟩ := e
      -- A search that goes on does so with the same books, whatever it remembers.
      have go : ∀ fits o,
          placeNow f job ((a, c) :: rest) obstacle s = placeNow f job rest o { s with fits := fits } →
          (∃ fits o, placeNow f job ((a, c) :: rest) obstacle s =
            ({ s with fits := fits }.keepWaiting job (.cannotStart o), false)) ∨
          ∃ fits, ∃ e ∈ (a, c) :: rest, ∃ resources,
            s.attempt f job e.2 f.now = .found resources ∧
            placeNow f job ((a, c) :: rest) obstacle s =
              (({ s with fits := fits }.booked f job e.2 f.now resources).launch job e.2 resources,
                true) := by
        intro fits o hgo
        rw [hgo]
        rcases ih o { s with fits := fits } with h | ⟨fits', e, he, resources, hfound, h⟩
        · exact Or.inl h
        · exact Or.inr ⟨fits', e, List.mem_cons_of_mem _ he, resources, hfound, h⟩
      by_cases hroom : s.hasNoRoomNow f (a.shape job.filter) = true
      · exact go s.fits obstacle (by simp only [placeNow, hroom, if_true])
      · cases hattempt : s.attempt f job c f.now with
        | found resources =>
            refine Or.inr ⟨s.fits, (a, c), by simp, resources, hattempt, ?_⟩
            simp only [placeNow, hroom, hattempt, commit_of_attempt hattempt]
            rfl
        | noRoom =>
            refine go (s.fits.put (a.shape job.filter) (.at (f.now + 1))) obstacle ?_
            simp only [placeNow, hroom, hattempt]
            rfl
        | overQuota d =>
            refine go s.fits (.fault (.quota d)) ?_
            simp only [placeNow, hroom, hattempt]
            rfl

theorem searchStarts_found {attemptAt : Int → Attempt} {ts : List Int}
    (h : (searchStarts attemptAt ts).1 = .found start resources) :
    start ∈ ts ∧ attemptAt start = .found resources := by
  induction ts with
  | nil => cases h
  | cons t rest ih =>
      simp only [searchStarts] at h
      cases hattempt : attemptAt t with
      | noRoom =>
          rw [hattempt] at h
          have := ih h
          exact ⟨List.mem_cons_of_mem _ this.1, this.2⟩
      | found r =>
          rw [hattempt] at h
          cases h
          exact ⟨by simp, hattempt⟩
      | overQuota d =>
          rw [hattempt] at h
          simp only at h
          split at h
          · cases h
          · have := ih h
            exact ⟨List.mem_cons_of_mem _ this.1, this.2⟩

theorem earliestFit_state (s : PassState) (f : Frame) (job : Job) (a : Alternative)
    (c : Candidate) : ∃ fits, (s.earliestFit f job a c).1 = { s with fits := fits } :=
  ⟨_, rfl⟩

theorem earliestFit_found {a : Alternative}
    (h : (s.earliestFit f job a c).2 = .found start resources) :
    start ∈ s.starts f (a.shape job.filter) c ∧ s.attempt f job c start = .found resources :=
  searchStarts_found h

theorem now_le_of_mem_starts {shape : Shape} {t : Int} (h : t ∈ s.starts f shape c) :
    f.now ≤ t := by
  have hfrom : ∀ u, t ∈ s.timeline.startsFrom u → u ≤ t := by
    intro u hu
    simp only [Timeline.startsFrom, List.mem_append, List.mem_filter, decide_eq_true_eq] at hu
    rcases hu with hu | hu
    · split at hu
      · rw [List.mem_singleton] at hu
        omega
      · cases hu
    · omega
  have hsub := (List.takeWhile_sublist _).subset h
  split at hsub
  · have := hfrom _ hsub
    omega
  · cases hsub
  · exact hfrom _ hsub

/-- A proposal that some attempt of the search made. -/
def Proposed (s : PassState) (f : Frame) (job : Job) (candidates : List (Alternative × Candidate))
    (p : Proposal) : Prop :=
  f.now ≤ p.start ∧
    ∃ e ∈ candidates, p.candidate = e.2 ∧ s.attempt f job e.2 p.start = .found p.resources

theorem bestProposal_cases (f : Frame) (job : Job) (candidates : List (Alternative × Candidate))
    (best : Option Proposal) (hit : Option Dimension) (s : PassState) :
    ∃ fits, (bestProposal f job candidates best hit s).1 = { s with fits := fits } ∧
      ∀ p, (bestProposal f job candidates best hit s).2.1 = some p →
        best = some p ∨ s.Proposed f job candidates p := by
  induction candidates generalizing best hit s with
  | nil => exact ⟨s.fits, rfl, fun p hp => Or.inl hp⟩
  | cons e rest ih =>
      obtain ⟨a, c⟩ := e
      obtain ⟨fits, hfits⟩ := earliestFit_state s f job a c
      cases hfit : (s.earliestFit f job a c).2 with
      | noRoom =>
          have hstep : bestProposal f job ((a, c) :: rest) best hit s =
              bestProposal f job rest best hit { s with fits := fits } := by
            simp only [bestProposal]
            rw [← hfits, ← Prod.eta (s.earliestFit f job a c), hfit]
          rw [hstep]
          obtain ⟨fits', hstate, hbest⟩ := ih best hit { s with fits := fits }
          refine ⟨fits', hstate, fun p hp => (hbest p hp).imp_right ?_⟩
          rintro ⟨hnow, e, he, hcand, hfound⟩
          exact ⟨hnow, e, List.mem_cons_of_mem _ he, hcand, hfound⟩
      | overQuota d =>
          have hstep : bestProposal f job ((a, c) :: rest) best hit s =
              bestProposal f job rest best (some d) { s with fits := fits } := by
            simp only [bestProposal]
            rw [← hfits, ← Prod.eta (s.earliestFit f job a c), hfit]
          rw [hstep]
          obtain ⟨fits', hstate, hbest⟩ := ih best (some d) { s with fits := fits }
          refine ⟨fits', hstate, fun p hp => (hbest p hp).imp_right ?_⟩
          rintro ⟨hnow, e, he, hcand, hfound⟩
          exact ⟨hnow, e, List.mem_cons_of_mem _ he, hcand, hfound⟩
      | found t r =>
          have hstep : bestProposal f job ((a, c) :: rest) best hit s =
              bestProposal f job rest (some (Proposal.better ⟨c, t, r⟩ best)) hit
                { s with fits := fits } := by
            simp only [bestProposal]
            rw [← hfits, ← Prod.eta (s.earliestFit f job a c), hfit]
          rw [hstep]
          obtain ⟨fits', hstate, hbest⟩ :=
            ih (some (Proposal.better ⟨c, t, r⟩ best)) hit { s with fits := fits }
          have hnew : s.Proposed f job ((a, c) :: rest) ⟨c, t, r⟩ :=
            ⟨now_le_of_mem_starts (earliestFit_found hfit).1, (a, c), by simp, rfl,
              (earliestFit_found hfit).2⟩
          refine ⟨fits', hstate, fun p hp => ?_⟩
          rcases hbest p hp with hp | ⟨hnow, e, he, hcand, hfound⟩
          · cases best with
            | none =>
                cases hp
                exact Or.inr hnew
            | some old =>
                simp only [Proposal.better] at hp
                split at hp
                · cases hp
                  exact Or.inr hnew
                · exact Or.inl hp
          · exact Or.inr ⟨hnow, e, List.mem_cons_of_mem _ he, hcand, hfound⟩

/-- What a whole search proposes was found by an attempt. -/
theorem bestProposal_proposes (f : Frame) (job : Job) (candidates : List (Alternative × Candidate))
    (s : PassState) :
    ∃ fits best hit, bestProposal f job candidates none none s = ({ s with fits := fits }, best, hit) ∧
      ∀ p, best = some p → s.Proposed f job candidates p := by
  obtain ⟨fits, hstate, hbest⟩ := bestProposal_cases f job candidates none none s
  refine ⟨fits, _, _, Prod.ext hstate rfl, fun p hp => ?_⟩
  exact (hbest p hp).resolve_left (Option.some_ne_none p).symm

theorem placeEarliest_cases (f : Frame) (job : Job) (candidates : List (Alternative × Candidate))
    (s : PassState) :
    (∃ fits note, placeEarliest f job candidates s =
      ({ s with fits := fits }.keepWaiting job note, false)) ∨
    ∃ fits p, s.Proposed f job candidates p ∧
      placeEarliest f job candidates s =
        (let s' := { s with fits := fits }.booked f job p.candidate p.start p.resources
         if p.start = f.now then s'.launch job p.candidate p.resources
         else s'.decide job .scheduled .waiting .none (.expected p.start p.candidate.id), true) := by
  obtain ⟨fits, best, hit, hsearch, hbest⟩ := bestProposal_proposes f job candidates s
  simp only [placeEarliest, hsearch]
  cases best with
  | none =>
      refine Or.inl ⟨fits, ?_⟩
      cases hit with
      | none => exact ⟨_, rfl⟩
      | some d => exact ⟨_, rfl⟩
  | some p =>
      refine Or.inr ⟨fits, p, hbest p rfl, ?_⟩
      obtain ⟨_, e, _, hcand, hfound⟩ := hbest p rfl
      rw [← hcand] at hfound
      have hcommit := commit_of_attempt (s := { s with fits := fits }) hfound
      simp only [hcommit]
      split <;> rfl

/-- What comes of trying results in order at one start: the first for which an attempt finds resources is
booked. -/
inductive Tried (f : Frame) (s s' : PassState) (job : Job) (start : Int)
    (results : List (Except Error Candidate)) : Prop where
  | refused {o : Obstacle} : s' = s.refuse job (.reservationRefused o) →
      (∀ c, .ok c ∈ results → ∀ r, s.attempt f job c start ≠ .found r) →
      Tried f s s' job start results
  | booked {before after : List (Except Error Candidate)} {c : Candidate} {resources : OrdinalSet} :
      results = before ++ .ok c :: after → s.attempt f job c start = .found resources →
      (∀ d, .ok d ∈ before → ∀ r, s.attempt f job d start ≠ .found r) →
      s' = (s.booked f job c start resources).decide job .scheduled .waiting .scheduled
        (.reservationPlaced start c.id) → Tried f s s' job start results

/-- A result for which nothing is found leaves the search to those behind it. -/
theorem Tried.skip {s' : PassState} {result : Except Error Candidate}
    {rest : List (Except Error Candidate)} (h : Tried f s s' job start rest)
    (hnot : ∀ c, result = .ok c → ∀ r, s.attempt f job c start ≠ .found r) :
    Tried f s s' job start (result :: rest) := by
  have hmore : ∀ {results : List (Except Error Candidate)},
      (∀ c, .ok c ∈ results → ∀ r, s.attempt f job c start ≠ .found r) →
      ∀ c, .ok c ∈ result :: results → ∀ r, s.attempt f job c start ≠ .found r :=
    fun h c hc => (List.mem_cons.1 hc).elim (fun heq => hnot c heq.symm) (h c)
  cases h with
  | refused hstate hnone => exact .refused hstate (hmore hnone)
  | booked hsplit hfound hbefore hstate =>
      exact .booked (by rw [hsplit, List.cons_append]) hfound (hmore hbefore) hstate

theorem placeReserved_tried (f : Frame) (job : Job) (start : Int)
    (results : List (Except Error Candidate)) (obstacle : Obstacle) (s : PassState) :
    Tried f s (placeReserved f job start results obstacle s) job start results := by
  induction results generalizing obstacle with
  | nil => exact .refused rfl nofun
  | cons result rest ih =>
      cases result with
      | error e => exact (ih (.fault e)).skip nofun
      | ok c =>
          simp only [placeReserved]
          cases hattempt : s.attempt f job c start with
          | found resources =>
              simp only [commit_of_attempt hattempt]
              exact .booked (List.nil_append _).symm hattempt nofun rfl
          | noRoom =>
              refine (ih (.notEnoughAt start c.id)).skip ?_
              rintro _ ⟨⟩ r hfound
              rw [hattempt] at hfound
              cases hfound
          | overQuota d =>
              refine (ih (.fault (.quota d))).skip ?_
              rintro _ ⟨⟩ r hfound
              rw [hattempt] at hfound
              cases hfound

theorem placeReserved_cases (f : Frame) (job : Job) (start : Int)
    (results : List (Except Error Candidate)) (obstacle : Obstacle) (s : PassState) :
    (∃ o, placeReserved f job start results obstacle s = s.refuse job (.reservationRefused o)) ∨
    ∃ c resources, .ok c ∈ results ∧ s.attempt f job c start = .found resources ∧
      placeReserved f job start results obstacle s =
        (s.booked f job c start resources).decide job .scheduled .waiting .scheduled
          (.reservationPlaced start c.id) := by
  cases placeReserved_tried f job start results obstacle s with
  | refused hstate _ => exact Or.inl ⟨_, hstate⟩
  | booked hsplit hfound _ hstate =>
      exact Or.inr ⟨_, _, hsplit ▸ List.mem_append_right _ List.mem_cons_self, hfound, hstate⟩

end Searches

end ClusterPlan.PassState
