import ClusterPlan.Proofs.Pass.Exclusion
import ClusterPlan.Proofs.Pass.Knowledge

/-!
What the memory of a pass is worth. A pass that looks up nothing of what it found about shapes reports
the same, as long as no job asks for parts that compete for resources: a choice for such parts may fail
with more room and succeed with less.
-/

namespace ClusterPlan

/-- The same pass without a memory for shapes. -/
def Frame.forgetful (f : Frame) : Frame := { f with remembersFits := false }

/-- All that the jobs to be considered can choose from is steady. -/
def Frame.IsSteady (f : Frame) : Prop :=
  ∀ job ∈ f.waiting, job.isReservation = false → ∀ a ∈ job.alternatives, ∀ c,
    f.catalog.candidate job.filter a = .ok c → c.Steady

theorem Frame.isSteady_of_singleParts {f : Frame}
    (h : ∀ job ∈ f.waiting, ∀ a ∈ job.alternatives, a.parts.length = 1) : f.IsSteady := by
  intro job hjob _ a ha c hc
  obtain ⟨_, _, _, _, hparts⟩ := Catalog.candidate_eq_ok hc
  exact Candidate.steady_of_singlePart (hparts.trans (h job hjob a ha))

namespace PassState

variable {f : Frame} {s : PassState} {job : Job}

/-- The state with something else remembered about shapes. -/
def withFits (s : PassState) (fits : Dictionary Shape FirstRoom) : PassState :=
  { s with fits := fits }

section Searchless

variable (fits : Dictionary Shape FirstRoom)

theorem evict_withFits (resources : OrdinalSet) :
    (s.withFits fits).evict resources =
      ((s.evict resources).1.withFits fits, (s.evict resources).2) := rfl

theorem launch_withFits (c : Candidate) (resources : OrdinalSet) :
    (s.withFits fits).launch job c resources = (s.launch job c resources).withFits fits := by
  simp only [launch, evict_withFits]
  cases job.isBestEffort <;> simp only [Bool.false_eq_true, if_false, if_true] <;> split <;> rfl

theorem claimStanding_withFits (units : Nat) (first last : Int) :
    (s.withFits fits).claimStanding job units first last =
      (s.claimStanding job units first last).withFits fits := by
  simp only [claimStanding]
  split <;> rfl

theorem booked_withFits (c : Candidate) (start : Int) (resources : OrdinalSet) :
    (s.withFits fits).booked f job c start resources =
      (s.booked f job c start resources).withFits fits := by
  simp only [booked, claimStanding_withFits]
  rfl

theorem settledNow_withFits (found : Except Obstacle (Candidate × OrdinalSet)) :
    (s.withFits fits).settledNow f job found =
      ((s.settledNow f job found).1.withFits fits, (s.settledNow f job found).2) := by
  cases found with
  | error obstacle => rfl
  | ok found => simp only [settledNow, booked_withFits, launch_withFits]

theorem settledSoonest_withFits (found : Option Proposal × Option Dimension) :
    (s.withFits fits).settledSoonest f job found =
      ((s.settledSoonest f job found).1.withFits fits, (s.settledSoonest f job found).2) := by
  obtain ⟨best, hit⟩ := found
  cases best with
  | none => cases hit <;> rfl
  | some p =>
      simp only [settledSoonest, booked_withFits, launch_withFits]
      split <;> rfl

theorem placeReserved_withFits (start : Int) (results : List (Except Error Candidate))
    (obstacle : Obstacle) :
    placeReserved f.forgetful job start results obstacle (s.withFits fits) =
      (placeReserved f job start results obstacle s).withFits fits := by
  induction results generalizing obstacle with
  | nil => rfl
  | cons result rest ih =>
      cases result with
      | error e => exact ih (.fault e)
      | ok c =>
          have hsame : (s.withFits fits).attempt f.forgetful job c start = s.attempt f job c start :=
            rfl
          cases hattempt : s.attempt f job c start with
          | found resources =>
              have hattempt' := hsame.trans hattempt
              simp only [placeReserved, hattempt, hattempt', commit_of_attempt hattempt,
                commit_of_attempt hattempt']
              rw [show (s.withFits fits).booked f.forgetful job c start resources =
                (s.booked f job c start resources).withFits fits from booked_withFits fits ..]
              rfl
          | noRoom =>
              simp only [placeReserved, hsame, hattempt]
              exact ih (.notEnoughAt start c.id)
          | overQuota d =>
              simp only [placeReserved, hsame, hattempt]
              exact ih (.fault (.quota d))

theorem placeReservation_withFits :
    placeReservation f.forgetful (s.withFits fits) job =
      (placeReservation f s job).withFits fits := by
  simp only [placeReservation, show f.forgetful.now = f.now from rfl]
  cases job.requestedStart with
  | none => rfl
  | some start =>
      by_cases hpassed : start < f.now
      · simp only [hpassed, if_true]
        rfl
      · simp only [hpassed, if_false]
        exact placeReserved_withFits (s := { s with matcher := (s.matcher.forJob f.catalog job).1 })
          fits start (s.matcher.forJob f.catalog job).2 .unresolved

theorem startReservation_withFits (a : Assignment) :
    startReservation f (s.withFits fits) job a = (startReservation f s job a).withFits fits := by
  simp only [startReservation, evict_withFits]
  split
  · by_cases hclear : (s.evict a.resources).2.isEmpty = true
    · simp only [hclear, if_true]
      rfl
    · simp only [hclear]
      rfl
  · rfl

theorem reviewReservation_withFits :
    reviewReservation f.forgetful (s.withFits fits) job =
      (reviewReservation f s job).withFits fits := by
  simp only [reviewReservation, show f.forgetful.now = f.now from rfl,
    show (s.withFits fits).reservations = s.reservations from rfl]
  cases s.reservations.get? job.id with
  | none => exact placeReservation_withFits (s := s.notify (.reservationWithoutRow job.id)) fits
  | some a =>
      by_cases hahead : f.now < a.start
      · simp only [hahead, if_true]
      · by_cases hexpired : a.last < f.now
        · simp only [hahead, hexpired, if_true, if_false]
          rfl
        · simp only [hahead, hexpired, if_false]
          exact startReservation_withFits fits a

theorem decideUnmatched_withFits (results : List (Except Error Candidate)) :
    (s.withFits fits).decideUnmatched job results =
      (s.decideUnmatched job results).withFits fits := by
  simp only [decideUnmatched]
  split <;> rfl

theorem wishWakeup_withFits (candidates : List (Alternative × Candidate)) :
    wishWakeup f job candidates (s.withFits fits) =
      (wishWakeup f job candidates s).withFits fits := by
  simp only [wishWakeup]
  rw [show (s.withFits fits).wakeTrial? f job candidates = s.wakeTrial? f job candidates from rfl]
  cases s.wakeTrial? f job candidates <;> rfl

end Searchless

section Searching

variable (fits : Dictionary Shape FirstRoom)

/-- A search with steady candidates places a job the same with and without memory. -/
theorem place_withFits {candidates : List (Alternative × Candidate)} (hs : f.Times s.timeline)
    (hright : FitsRight f s.timeline s.fits) (hright' : FitsRight f s.timeline fits)
    (hmatch : Matches f job candidates) (hsteady : ∀ e ∈ candidates, e.2.Steady) :
    ∃ fits', place f.forgetful job candidates (s.withFits fits) =
      ((place f job candidates s).1.withFits fits', (place f job candidates s).2) := by
  have hs' : f.forgetful.Times (s.withFits fits).timeline := ⟨hs.wellFormed, hs.origin, hs.horizon⟩
  simp only [place, show f.forgetful.config = f.config from rfl]
  cases f.config.policy with
  | fifo =>
      obtain ⟨known, hplace⟩ := placeNow_eq .notEnough hs hright hmatch fun _ => hsteady
      obtain ⟨fits', hplace'⟩ := placeNow_eq .notEnough hs' hright' hmatch fun hremembers =>
        absurd hremembers Bool.false_ne_true
      refine ⟨fits', ?_⟩
      simp only [hplace, hplace']
      exact settledNow_withFits (s := { s with fits := known }) fits' _
  | backfill =>
      obtain ⟨known, hplace⟩ := placeEarliest_eq hs hright hmatch fun _ => hsteady
      obtain ⟨fits', hplace'⟩ := placeEarliest_eq hs' hright' hmatch fun hremembers =>
        absurd hremembers Bool.false_ne_true
      refine ⟨fits', ?_⟩
      simp only [hplace, hplace']
      exact settledSoonest_withFits (s := { s with fits := known }) fits' _

theorem consider_withFits (hs : Informed f s) (hs' : Informed f.forgetful (s.withFits fits))
    (hsteady : ∀ e ∈ candidatesOf f.catalog job, e.2.Steady) :
    ∃ fits', consider f.forgetful (s.withFits fits) job = (consider f s job).withFits fits' := by
  cases hblocker : s.blocker with
  | some blocker =>
      have hblocker' : (s.withFits fits).blocker = some blocker := hblocker
      exact ⟨fits, by simp only [consider, hblocker, hblocker']; rfl⟩
  | none =>
      rw [consider_eq hs.serves hblocker, consider_eq hs'.serves hblocker]
      obtain ⟨fits', hplace⟩ := place_withFits (s := s.asked f job) fits hs.times hs.right hs'.right
        (@matches_candidatesOf f job) hsteady
      rw [show (s.withFits fits).asked f.forgetful job = (s.asked f job).withFits fits from rfl,
        show f.forgetful.catalog = f.catalog from rfl,
        show f.forgetful.config = f.config from rfl, hplace]
      split
      · exact ⟨fits, decideUnmatched_withFits fits _⟩
      · refine ⟨fits', ?_⟩
        rw [show wishWakeup f.forgetful = wishWakeup f from rfl]
        simp only [wishWakeup_withFits]
        split <;> rfl

theorem perform_withFits (hs : Informed f s) (hs' : Informed f.forgetful (s.withFits fits))
    {task : Task}
    (hsteady : ∀ job, task = .consider job → ∀ e ∈ candidatesOf f.catalog job, e.2.Steady) :
    ∃ fits', perform f.forgetful (s.withFits fits) task = (perform f s task).withFits fits' := by
  cases task with
  | review job => exact ⟨fits, reviewReservation_withFits fits⟩
  | reserve job => exact ⟨fits, placeReservation_withFits fits⟩
  | openQueue => exact ⟨fits, rfl⟩
  | consider job => exact consider_withFits fits hs hs' (hsteady job rfl)
  | showBestEffort => exact ⟨fits, rfl⟩

theorem run_withFits {tasks : List Task} (hs : Informed f s)
    (hs' : Informed f.forgetful (s.withFits fits))
    (hsteady : ∀ job, .consider job ∈ tasks → ∀ e ∈ candidatesOf f.catalog job, e.2.Steady) :
    ∃ fits', tasks.foldl (perform f.forgetful) (s.withFits fits) =
      (tasks.foldl (perform f) s).withFits fits' := by
  induction tasks generalizing s fits with
  | nil => exact ⟨fits, rfl⟩
  | cons task rest ih =>
      obtain ⟨fits', htask⟩ := perform_withFits fits hs hs' fun job hjob =>
        hsteady job (hjob ▸ List.mem_cons_self)
      rw [List.foldl_cons, List.foldl_cons, htask]
      exact ih fits' (hs.step task).1 (htask ▸ (hs'.step task).1) fun job hjob =>
        hsteady job (List.mem_cons_of_mem _ hjob)

end Searching

end PassState

/-- The memory for shapes saves work and nothing else, if all requests are steady. -/
theorem run_forgetful {f : Frame} {uses : List Matcher.Use}
    (hapart : Matcher.SnapshotsApart (f.catalog :: uses.map Matcher.Use.catalog))
    (hsteady : f.IsSteady) : f.forgetful.run (.after uses) = f.run (.after uses) := by
  have hready := Matcher.ready_after hapart
  have hstart := PassState.informed_start hready
  have hstart' := PassState.informed_start (f := f.forgetful) hready
  have hcandidates : ∀ job, .consider job ∈ f.agenda →
      ∀ e ∈ PassState.candidatesOf f.catalog job, e.2.Steady := by
    intro job hjob e he
    obtain ⟨hwaiting, hplain⟩ := Frame.job_of_consider hjob
    obtain ⟨ha, hc⟩ := PassState.mem_candidatesOf.1 he
    exact hsteady job hwaiting hplain e.1 ha e.2 hc
  obtain ⟨fits, hrun⟩ := PassState.run_withFits _ hstart hstart' hcandidates
  have hfinished : PassState.finished f.forgetful (.after uses) =
      (PassState.finished f (.after uses)).withFits fits := hrun
  rw [Frame.run, Frame.run, hfinished]
  rfl

section CompetingParts

/-- A waiting job for one resource without a GPU. -/
def withoutGpu (id : Int) : Job :=
  { exampleJob id [] 1 with
    alternatives := [⟨10 * id, 10, [⟨some "gpu='no'", [⟨"resource_id", 1⟩]⟩]⟩] }

/-- Three nodes, the first of two resources. The node `c`, with one of the two GPUs, is in use. -/
def twoGpuFrame (waiting : List Job) : Frame :=
  { twoResourceFrame 9 with
    catalog :=
      ⟨1, [⟨1, .alive, none, none, [("network_address", "a"), ("gpu", "yes")]⟩,
        ⟨2, .alive, none, none, [("network_address", "a"), ("gpu", "no")]⟩,
        ⟨3, .alive, none, none, [("network_address", "b"), ("gpu", "no")]⟩,
        ⟨4, .alive, none, none, [("network_address", "c"), ("gpu", "yes")]⟩], by decide⟩
    gantt := [⟨9, 90, 50, 100, [4]⟩]
    active := [{ exampleJob 9 [] 1 with state := .running }]
    waiting := waiting }

/-- Three jobs of one shape, for which there are two resources. -/
theorem run_forgetful_withoutGpu :
    let f := twoGpuFrame [withoutGpu 1, withoutGpu 2, withoutGpu 3]
    Matcher.SnapshotsApart (f.catalog :: [].map Matcher.Use.catalog) ∧ f.IsSteady ∧
      f.forgetful.run (.after []) = f.run (.after []) := by
  intro f
  have hapart := Matcher.snapshotsApart_singleton f.catalog
  have hsteady : f.IsSteady := by
    refine Frame.isSteady_of_singleParts fun job hjob a ha => ?_
    simp only [f, twoGpuFrame, List.mem_cons, List.not_mem_nil, or_false] at hjob
    rcases hjob with rfl | rfl | rfl <;> simp only [withoutGpu, List.mem_singleton] at ha <;> rw [ha] <;>
      rfl
  exact ⟨hapart, hsteady, run_forgetful hapart hsteady⟩

/-- A waiting job for a whole node and one more resource, which has to have a GPU. -/
def nodeAndGpu (id : Int) : Job :=
  { exampleJob id [] 1 with
    alternatives :=
      [⟨10 * id, 10, [⟨none, [⟨"network_address", 1⟩]⟩, ⟨some "gpu='yes'", [⟨"resource_id", 1⟩]⟩]⟩] }

def competingParts : Frame := twoGpuFrame [nodeAndGpu 1, withoutGpu 2, nodeAndGpu 3]

theorem agenda_competingParts :
    competingParts.agenda = [.openQueue, .consider (nodeAndGpu 1), .consider (withoutGpu 2),
      .consider (nodeAndGpu 3), .showBestEffort, .openQueue] := by
  cbv

/-- At first the part for a node takes the free GPU as well. When a part of that node is gone it takes
the other node, and the job could start at once; but by then the pass has stopped looking. -/
theorem not_run_forgetful_competingParts :
    ¬ ∀ (f : Frame) (m : Matcher), f.forgetful.run m = f.run m := by
  intro h
  have hstarts : ((competingParts.run .empty).report.commitments.map
      fun c => (c.job.id, c.placement.assignment.start)) = [(1, 150), (2, 100), (3, 160)] := by
    simp only [Frame.run, PassState.report, PassState.finished, agenda_competingParts]
    decide +kernel
  have hstarts' : ((competingParts.forgetful.run .empty).report.commitments.map
      fun c => (c.job.id, c.placement.assignment.start)) = [(1, 150), (2, 100), (3, 100)] := by
    simp only [Frame.run, PassState.report, PassState.finished,
      show competingParts.forgetful.agenda = competingParts.agenda from rfl, agenda_competingParts]
    decide +kernel
  rw [h, hstarts] at hstarts'
  exact absurd hstarts' (by decide)

end CompetingParts

end ClusterPlan
