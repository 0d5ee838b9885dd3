import ClusterPlan.Proofs.Pass.Commitments
import ClusterPlan.Proofs.Pass.Rooms

/-!
The searches of a pass without their memory. As long as what is remembered is right, a search whose
candidates are steady ends as if it remembered nothing, and it only remembers what is right.
-/

namespace ClusterPlan.PassState

variable {f : Frame} {s s' : PassState} {job : Job} {task : Task}

/-- The first candidate that can start now, or what stood in the way last. -/
def firstFitting (attemptNow : Candidate → Attempt) :
    List (Alternative × Candidate) → Obstacle → Except Obstacle (Candidate × OrdinalSet)
  | [], obstacle => .error obstacle
  | (_, c) :: rest, obstacle =>
      match attemptNow c with
      | .found resources => .ok (c, resources)
      | .noRoom => firstFitting attemptNow rest obstacle
      | .overQuota d => firstFitting attemptNow rest (.fault (.quota d))

/-- The state after a search at the present second. -/
def settledNow (s : PassState) (f : Frame) (job : Job) :
    Except Obstacle (Candidate × OrdinalSet) → PassState × Bool
  | .error obstacle => (s.keepWaiting job (.cannotStart obstacle), false)
  | .ok (c, resources) => ((s.booked f job c f.now resources).launch job c resources, true)

/-- The best of the fits, and the last quota that stood in the way. -/
def soonest (fitOf : Candidate → Fit) :
    List (Alternative × Candidate) → Option Proposal → Option Dimension →
      Option Proposal × Option Dimension
  | [], best, hit => (best, hit)
  | (_, c) :: rest, best, hit =>
      match fitOf c with
      | .found start resources =>
          soonest fitOf rest (some (Proposal.better ⟨c, start, resources⟩ best)) hit
      | .overQuota d => soonest fitOf rest best (some d)
      | .noRoom => soonest fitOf rest best hit

/-- The state after a search for the earliest end. -/
def settledSoonest (s : PassState) (f : Frame) (job : Job) :
    Option Proposal × Option Dimension → PassState × Bool
  | (none, some d) => (s.keepWaiting job (.notScheduled (.fault (.quota d))), false)
  | (none, none) => (s.keepWaiting job (.notScheduled .noRoom), false)
  | (some p, _) =>
      let placed := s.booked f job p.candidate p.start p.resources
      (if p.start = f.now then placed.launch job p.candidate p.resources
        else placed.decide job .scheduled .waiting .none (.expected p.start p.candidate.id), true)

/-- What a search finds for a candidate that remembers nothing. -/
def freshFit (s : PassState) (f : Frame) (job : Job) (c : Candidate) : Fit :=
  (searchStarts (s.attempt f job c) (s.startsSince c f.now)).1

/-- Alternatives of a job with their candidates in the catalog of the pass. -/
def Matches (f : Frame) (job : Job) (candidates : List (Alternative × Candidate)) : Prop :=
  ∀ e ∈ candidates, f.catalog.candidate job.filter e.1 = .ok e.2

/-- What a state holds beside its books and its wishes for power is the same. -/
structure SameMemory (s s' : PassState) : Prop where
  matcher : s'.matcher = s.matcher
  fits : s'.fits = s.fits
  blocker : s'.blocker = s.blocker

theorem SameMemory.trans {s s' s'' : PassState} (h : SameMemory s s') (h' : SameMemory s' s'') :
    SameMemory s s'' :=
  ⟨h'.matcher.trans h.matcher, h'.fits.trans h.fits, h'.blocker.trans h.blocker⟩

section Now

theorem not_roomAt_of_hasNoRoomNow {a : Alternative} {c : Candidate}
    (hfits : FitsRight f s.timeline s.fits) (hc : f.catalog.candidate job.filter a = .ok c)
    (hsteady : f.remembersFits = true → c.Steady)
    (h : s.hasNoRoomNow f (a.shape job.filter) = true) : ¬ f.RoomAt s.timeline c f.now := by
  simp only [hasNoRoomNow, remembered?] at h
  cases hremembers : f.remembersFits with
  | false => simp [hremembers] at h
  | true =>
      simp only [hremembers, if_true] at h
      cases hget : s.fits.get? (a.shape job.filter) with
      | none => simp [hget] at h
      | some room =>
          refine hfits _ _ hget job.filter a c rfl hc (hsteady hremembers) f.now (le_refl _) ?_
          cases room with
          | «at» u => simpa [hget, FirstRoom.Excludes] using h
          | nowhere => trivial

theorem fitsRight_remember_now {a : Alternative} {c : Candidate} (hs : f.Times s.timeline)
    (hfits : FitsRight f s.timeline s.fits) (hc : f.catalog.candidate job.filter a = .ok c)
    (h : s.attempt f job c f.now = .noRoom) :
    FitsRight f s.timeline (s.remember (a.shape job.filter) (.at (f.now + 1))).fits := by
  refine hfits.put hc fun _ t hnow hexcludes => ?_
  simp only [FirstRoom.Excludes] at hexcludes
  rw [show t = f.now by omega]
  exact (attempt_eq_noRoom_iff hs).1 h

theorem launch_memory (s : PassState) (job : Job) (c : Candidate) (resources : OrdinalSet) :
    SameMemory s (s.launch job c resources) := by
  simp only [launch]
  cases job.isBestEffort <;> simp only [Bool.false_eq_true, if_false, if_true] <;> split <;>
    exact ⟨rfl, rfl, rfl⟩

theorem booked_memory (s : PassState) (f : Frame) (job : Job) (c : Candidate) (start : Int)
    (resources : OrdinalSet) : SameMemory s (s.booked f job c start resources) := by
  obtain ⟨ledger, claims, hbooked⟩ := booked_eq s f job c start resources
  rw [hbooked]
  exact ⟨rfl, rfl, rfl⟩

theorem settledNow_memory (s : PassState) (f : Frame) (job : Job)
    (found : Except Obstacle (Candidate × OrdinalSet)) :
    SameMemory s (s.settledNow f job found).1 := by
  cases found with
  | error obstacle => exact ⟨rfl, rfl, rfl⟩
  | ok found => exact (booked_memory ..).trans (launch_memory ..)

/-- What a search leaves of what the pass knows: it remembers more about shapes, all of it right. -/
structure Learns (f : Frame) (s s' : PassState) : Prop where
  matcher : s'.matcher = s.matcher
  blocker : s'.blocker = s.blocker
  right : FitsRight f s.timeline s'.fits

theorem SameMemory.learns (h : SameMemory s s') (hfits : FitsRight f s.timeline s.fits) :
    Learns f s s' :=
  ⟨h.matcher, h.blocker, h.fits ▸ hfits⟩

theorem placeNow_learns {candidates : List (Alternative × Candidate)} (obstacle : Obstacle)
    (hs : f.Times s.timeline) (hfits : FitsRight f s.timeline s.fits)
    (hmatch : Matches f job candidates) :
    Learns f s (placeNow f job candidates obstacle s).1 := by
  induction candidates generalizing obstacle s with
  | nil => exact ⟨rfl, rfl, hfits⟩
  | cons e rest ih =>
      obtain ⟨a, c⟩ := e
      obtain ⟨hc, hrest⟩ := List.forall_mem_cons.1 hmatch
      simp only [placeNow]
      split
      · exact ih obstacle hs hfits hrest
      · cases hattempt : s.attempt f job c f.now with
        | found resources =>
            simp only [commit_of_attempt hattempt]
            exact (settledNow_memory s f job (.ok (c, resources))).learns hfits
        | noRoom =>
            have hlearns := ih (s := s.remember (a.shape job.filter) (.at (f.now + 1))) obstacle hs
              (fitsRight_remember_now hs hfits hc hattempt) hrest
            exact ⟨hlearns.matcher, hlearns.blocker, hlearns.right⟩
        | overQuota d => exact ih _ hs hfits hrest

/-- With steady candidates a search at the present second ends as without memory. -/
theorem placeNow_eq {candidates : List (Alternative × Candidate)} (obstacle : Obstacle)
    (hs : f.Times s.timeline) (hfits : FitsRight f s.timeline s.fits)
    (hmatch : Matches f job candidates)
    (hsteady : f.remembersFits = true → ∀ e ∈ candidates, e.2.Steady) :
    ∃ fits, placeNow f job candidates obstacle s =
      { s with fits := fits }.settledNow f job
        (firstFitting (s.attempt f job · f.now) candidates obstacle) := by
  induction candidates generalizing obstacle s with
  | nil => exact ⟨s.fits, rfl⟩
  | cons e rest ih =>
      obtain ⟨a, c⟩ := e
      obtain ⟨hc, hrest⟩ := List.forall_mem_cons.1 hmatch
      have hsteadyRest := fun h => (List.forall_mem_cons.1 (hsteady h)).2
      simp only [placeNow, firstFitting]
      split
      · rename_i hnone
        have hattempt : s.attempt f job c f.now = .noRoom :=
          (attempt_eq_noRoom_iff hs).2 (not_roomAt_of_hasNoRoomNow hfits hc
            (fun h => (List.forall_mem_cons.1 (hsteady h)).1) hnone)
        rw [hattempt]
        exact ih obstacle hs hfits hrest hsteadyRest
      · cases hattempt : s.attempt f job c f.now with
        | found resources =>
            refine ⟨s.fits, ?_⟩
            simp only [commit_of_attempt hattempt]
            rfl
        | noRoom =>
            exact ih obstacle hs (fitsRight_remember_now hs hfits hc hattempt) hrest hsteadyRest
        | overQuota d => exact ih _ hs hfits hrest hsteadyRest

end Now

section Earliest

theorem bestProposal_learns {candidates : List (Alternative × Candidate)} (best : Option Proposal)
    (hit : Option Dimension) (hs : f.Times s.timeline) (hfits : FitsRight f s.timeline s.fits)
    (hmatch : Matches f job candidates) :
    FitsRight f s.timeline (bestProposal f job candidates best hit s).1.fits := by
  induction candidates generalizing best hit s with
  | nil => exact hfits
  | cons e rest ih =>
      obtain ⟨a, c⟩ := e
      obtain ⟨hc, hrest⟩ := List.forall_mem_cons.1 hmatch
      have hfits' : FitsRight f s.timeline (s.earliestFit f job a c).1.fits :=
        fitsRight_earliestFit hs hfits hc
      simp only [bestProposal]
      obtain ⟨fits, hstate⟩ := earliestFit_state s f job a c
      obtain ⟨s', fit, hfit⟩ : ∃ s' fit, s.earliestFit f job a c = (s', fit) := ⟨_, _, rfl⟩
      rw [hfit] at hstate hfits' ⊢
      cases hstate
      cases fit with
      | found start resources => exact ih _ hit hs hfits' hrest
      | noRoom => exact ih best hit hs hfits' hrest
      | overQuota d => exact ih best _ hs hfits' hrest

theorem bestProposal_eq {candidates : List (Alternative × Candidate)} (best : Option Proposal)
    (hit : Option Dimension) (hs : f.Times s.timeline) (hfits : FitsRight f s.timeline s.fits)
    (hmatch : Matches f job candidates)
    (hsteady : f.remembersFits = true → ∀ e ∈ candidates, e.2.Steady) :
    ∃ fits, bestProposal f job candidates best hit s =
      ({ s with fits := fits }, soonest (s.freshFit f job) candidates best hit) := by
  induction candidates generalizing best hit s with
  | nil => exact ⟨s.fits, rfl⟩
  | cons e rest ih =>
      obtain ⟨a, c⟩ := e
      obtain ⟨hc, hrest⟩ := List.forall_mem_cons.1 hmatch
      have hsteadyRest := fun h => (List.forall_mem_cons.1 (hsteady h)).2
      have hfits' : FitsRight f s.timeline (s.earliestFit f job a c).1.fits :=
        fitsRight_earliestFit hs hfits hc
      have hfresh := earliestFit_eq hs hfits hc
        (fun h => (List.forall_mem_cons.1 (hsteady h)).1)
      simp only [bestProposal, soonest, freshFit]
      obtain ⟨fits, hstate⟩ := earliestFit_state s f job a c
      obtain ⟨s', fit, hfit⟩ : ∃ s' fit, s.earliestFit f job a c = (s', fit) := ⟨_, _, rfl⟩
      rw [hfit] at hstate hfits' hfresh ⊢
      cases hstate
      rw [← hfresh]
      cases fit with
      | found start resources => exact ih _ hit hs hfits' hrest hsteadyRest
      | noRoom => exact ih best hit hs hfits' hrest hsteadyRest
      | overQuota d => exact ih best _ hs hfits' hrest hsteadyRest

/-- A search that ends with a proposal books it. -/
theorem placeEarliest_settles (f : Frame) (job : Job) (candidates : List (Alternative × Candidate))
    (s : PassState) :
    placeEarliest f job candidates s =
      (bestProposal f job candidates none none s).1.settledSoonest f job
        (bestProposal f job candidates none none s).2 := by
  obtain ⟨fits, best, hit, hsearch, hbest⟩ := bestProposal_proposes f job candidates s
  simp only [placeEarliest, hsearch]
  cases best with
  | none => cases hit <;> rfl
  | some p =>
      obtain ⟨_, e, _, hcand, hfound⟩ := hbest p rfl
      rw [← hcand] at hfound
      have hcommit := commit_of_attempt (s := { s with fits := fits }) hfound
      simp only [hcommit, settledSoonest]
      split <;> rfl

theorem settledSoonest_memory (s : PassState) (f : Frame) (job : Job)
    (found : Option Proposal × Option Dimension) :
    SameMemory s (s.settledSoonest f job found).1 := by
  obtain ⟨best, hit⟩ := found
  cases best with
  | none => cases hit <;> exact ⟨rfl, rfl, rfl⟩
  | some p =>
      have hbooked := booked_memory s f job p.candidate p.start p.resources
      simp only [settledSoonest]
      split
      · exact hbooked.trans (launch_memory ..)
      · exact ⟨hbooked.matcher, hbooked.fits, hbooked.blocker⟩

theorem placeEarliest_learns {candidates : List (Alternative × Candidate)}
    (hs : f.Times s.timeline) (hfits : FitsRight f s.timeline s.fits)
    (hmatch : Matches f job candidates) :
    Learns f s (placeEarliest f job candidates s).1 := by
  obtain ⟨fits, hstate, _⟩ := bestProposal_cases f job candidates none none s
  have hright := bestProposal_learns none none hs hfits hmatch
  have hmemory := settledSoonest_memory (bestProposal f job candidates none none s).1 f job
    (bestProposal f job candidates none none s).2
  rw [← placeEarliest_settles] at hmemory
  exact ⟨hmemory.matcher.trans (by rw [hstate]), hmemory.blocker.trans (by rw [hstate]),
    hmemory.fits ▸ hright⟩

/-- With steady candidates a search for the earliest end ends as without memory. -/
theorem placeEarliest_eq {candidates : List (Alternative × Candidate)}
    (hs : f.Times s.timeline) (hfits : FitsRight f s.timeline s.fits)
    (hmatch : Matches f job candidates)
    (hsteady : f.remembersFits = true → ∀ e ∈ candidates, e.2.Steady) :
    ∃ fits, placeEarliest f job candidates s =
      { s with fits := fits }.settledSoonest f job
        (soonest (s.freshFit f job) candidates none none) := by
  obtain ⟨fits, hbest⟩ := bestProposal_eq none none hs hfits hmatch hsteady
  exact ⟨fits, by rw [placeEarliest_settles, hbest]⟩

end Earliest

end ClusterPlan.PassState
