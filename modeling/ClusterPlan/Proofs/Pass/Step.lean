import ClusterPlan.Pass.Basic
import ClusterPlan.Proofs.Pass.Booking

/-!
What one task does to the books of a pass. The books are the timeline, the quota ledger, all that is
placed, and what was decided; the rest of the state only shortens later searches or asks for power.
`Step` lists everything that a task can do, each with the conditions under which it happens.
-/

namespace ClusterPlan

/-- The tasks that look for a place for a reservation. -/
def Task.Reserves (s : PassState) (task : Task) (job : Job) : Prop :=
  task = .reserve job ∨ task = .review job ∧ s.reservations.get? job.id = none

namespace PassState

/-- The two states have the same books. -/
structure Alike (s s' : PassState) : Prop where
  timeline : s'.timeline = s.timeline
  ledger : s'.ledger = s.ledger
  placements : s'.placements = s.placements
  reservations : s'.reservations = s.reservations
  claims : s'.claims = s.claims
  bestEffort : s'.bestEffort = s.bestEffort
  victims : s'.victims = s.victims
  commitments : s'.commitments = s.commitments
  decisions : s'.decisions = s.decisions

namespace Alike

variable {f : Frame} {s s' s'' : PassState} {job : Job} {c : Candidate} {start : Int}
  {resources : OrdinalSet}

theorem refl (s : PassState) : Alike s s := by
  constructor <;> rfl

theorem trans (h : Alike s s') (h' : Alike s' s'') : Alike s s'' where
  timeline := h'.timeline.trans h.timeline
  ledger := h'.ledger.trans h.ledger
  placements := h'.placements.trans h.placements
  reservations := h'.reservations.trans h.reservations
  claims := h'.claims.trans h.claims
  bestEffort := h'.bestEffort.trans h.bestEffort
  victims := h'.victims.trans h.victims
  commitments := h'.commitments.trans h.commitments
  decisions := h'.decisions.trans h.decisions

theorem attempt_eq (h : Alike s s') : s'.attempt f job c start = s.attempt f job c start := by
  simp only [attempt, h.timeline, h.ledger]

theorem decide (h : Alike s s') (outcome : Outcome) (state : JobState) (reservation : Reservation)
    (note : Note) :
    Alike (s.decide job outcome state reservation note)
      (s'.decide job outcome state reservation note) :=
  { h with decisions := by simp only [PassState.decide, h.decisions, h.placements] }

theorem evict (h : Alike s s') (resources : OrdinalSet) :
    Alike (s.evict resources).1 (s'.evict resources).1 ∧
      (s'.evict resources).2 = (s.evict resources).2 :=
  ⟨{ h with victims := by simp only [PassState.evict, h.bestEffort, h.victims] },
    by simp only [PassState.evict, h.bestEffort]⟩

theorem claimStanding (h : Alike s s') (units : Nat) (first last : Int) :
    Alike (s.claimStanding job units first last) (s'.claimStanding job units first last) := by
  cases hquota : job.isWithoutQuotas with
  | true => simpa only [PassState.claimStanding, hquota, if_true] using h
  | false =>
      simp only [PassState.claimStanding, hquota, Bool.false_eq_true, if_false]
      exact { h with
        ledger := by simp only [h.ledger]
        claims := by simp only [h.ledger, h.claims] }

theorem booked (h : Alike s s') :
    Alike (s.booked f job c start resources) (s'.booked f job c start resources) :=
  { h.claimStanding resources.card start (f.heldOnTimeline start c.walltime) with
    timeline := by simp only [PassState.booked, h.timeline]
    placements := by simp only [PassState.booked, h.placements]
    commitments := by simp only [PassState.booked, h.commitments] }

theorem launch (h : Alike s s') :
    Alike (s.launch job c resources) (s'.launch job c resources) := by
  obtain ⟨hevict, hblockers⟩ := h.evict resources
  simp only [PassState.launch]
  cases job.isBestEffort with
  | true => exact h.decide ..
  | false =>
      simp only [Bool.false_eq_true, if_false, hblockers]
      split
      · exact hevict.decide ..
      · exact hevict.decide ..

end Alike

/-- An answer of the matcher, and what was found for it on the timeline. -/
structure Finds (s : PassState) (f : Frame) (job : Job) (c : Candidate) (start : Int)
    (resources : OrdinalSet) : Prop where
  isMatch : .ok c ∈ (s.matcher.forJob f.catalog job).2
  isFound : s.attempt f job c start = .found resources

/-- What a task can do. -/
inductive Step (f : Frame) (s s' : PassState) : Task → Prop where
  | opened : Alike s s' → Step f s s' .openQueue
  | shown : Alike s.occupyBestEffort s' → Step f s s' .showBestEffort
  /-- A granted reservation whose start is still to come. -/
  | ahead {job : Job} {a : Assignment} : s.reservations.get? job.id = some a → f.now < a.start →
      Alike s s' → Step f s s' (.review job)
  | expired {job : Job} {a : Assignment} : s.reservations.get? job.id = some a →
      a.start ≤ f.now → a.last < f.now →
      Alike ((s.abandon job.id).decide job .error .error .scheduled
        (.reservationExpired a.start a.last)) s' → Step f s s' (.review job)
  | delayed {job : Job} {a : Assignment} {note : Note} : s.reservations.get? job.id = some a →
      a.start ≤ f.now → f.now ≤ a.last → a.resources.subset (f.catalog.inState .alive) = false →
      Alike (s.decide job .stillWaiting .waiting .scheduled note) s' → Step f s s' (.review job)
  | awaited {job : Job} {a : Assignment} {note : Note} : s.reservations.get? job.id = some a →
      a.start ≤ f.now → f.now ≤ a.last → a.resources.subset (f.catalog.inState .alive) = true →
      (s.evict a.resources).2 ≠ [] →
      Alike ((s.evict a.resources).1.decide job .stillWaiting .waiting .scheduled note) s' →
      Step f s s' (.review job)
  | started {job : Job} {a : Assignment} : s.reservations.get? job.id = some a →
      a.start ≤ f.now → f.now ≤ a.last → a.resources.subset (f.catalog.inState .alive) = true →
      (s.evict a.resources).2 = [] →
      Alike (s.decide job .toLaunch .toLaunch .scheduled (.reservationStarts a.start f.now)) s' →
      Step f s s' (.review job)
  | refused {task : Task} {job : Job} {note : Note} : task.Reserves s job →
      Alike (s.refuse job note) s' → Step f s s' task
  | granted {task : Task} {job : Job} {c : Candidate} {start : Int} {resources : OrdinalSet} :
      task.Reserves s job → job.requestedStart = some start → f.now ≤ start →
      s.Finds f job c start resources →
      Alike ((s.booked f job c start resources).decide job .scheduled .waiting .scheduled
        (.reservationPlaced start c.id)) s' → Step f s s' task
  | kept {job : Job} {note : Note} : Alike (s.keepWaiting job note) s' → Step f s s' (.consider job)
  | rejected {job : Job} {e : Error} : Alike (s.decide job .error .error .none (.faulty e)) s' →
      Step f s s' (.consider job)
  | planned {job : Job} {c : Candidate} {start : Int} {resources : OrdinalSet} : f.now < start →
      s.Finds f job c start resources →
      Alike ((s.booked f job c start resources).decide job .scheduled .waiting .none
        (.expected start c.id)) s' → Step f s s' (.consider job)
  | launched {job : Job} {c : Candidate} {resources : OrdinalSet} :
      s.Finds f job c f.now resources →
      Alike ((s.booked f job c f.now resources).launch job c resources) s' →
      Step f s s' (.consider job)

theorem Step.alike {f : Frame} {s s' s'' : PassState} {task : Task} (h : Step f s s' task)
    (h' : Alike s' s'') : Step f s s'' task := by
  cases h with
  | opened hs => exact .opened (hs.trans h')
  | shown hs => exact .shown (hs.trans h')
  | ahead ha hahead hs => exact .ahead ha hahead (hs.trans h')
  | expired ha hdue hlast hs => exact .expired ha hdue hlast (hs.trans h')
  | delayed ha hdue hlast halive hs => exact .delayed ha hdue hlast halive (hs.trans h')
  | awaited ha hdue hlast halive hblockers hs =>
      exact .awaited ha hdue hlast halive hblockers (hs.trans h')
  | started ha hdue hlast halive hblockers hs =>
      exact .started ha hdue hlast halive hblockers (hs.trans h')
  | refused htask hs => exact .refused htask (hs.trans h')
  | granted htask hstart hnow hfinds hs => exact .granted htask hstart hnow hfinds (hs.trans h')
  | kept hs => exact .kept (hs.trans h')
  | rejected hs => exact .rejected (hs.trans h')
  | planned hnow hfinds hs => exact .planned hnow hfinds (hs.trans h')
  | launched hfinds hs => exact .launched hfinds (hs.trans h')

variable {f : Frame} {s s' : PassState} {job : Job}

section Reservations

theorem step_placeReservation {task : Task} (htask : task.Reserves s job) (hs : Alike s s')
    (hmatcher : s'.matcher = s.matcher) : Step f s (placeReservation f s' job) task := by
  simp only [placeReservation]
  cases hstart : job.requestedStart with
  | none => exact .refused htask (hs.decide ..)
  | some start =>
      by_cases hpassed : start < f.now
      · simp only [hpassed, if_true]
        exact .refused htask (hs.decide ..)
      · simp only [hpassed, if_false]
        obtain ⟨m, results, hresults⟩ : ∃ m results, s'.matcher.forJob f.catalog job = (m, results) :=
          ⟨_, _, rfl⟩
        rw [hresults]
        have halike : Alike s { s' with matcher := m } := { hs with }
        rcases placeReserved_cases f job start results .unresolved { s' with matcher := m } with
          ⟨o, ho⟩ | ⟨c, resources, hc, hfound, hplaced⟩
        · rw [ho]
          exact .refused htask (halike.decide ..)
        · rw [hplaced]
          rw [halike.attempt_eq] at hfound
          refine .granted htask hstart (by omega) ⟨?_, hfound⟩ (halike.booked.decide ..)
          rw [← hmatcher, hresults]
          exact hc

theorem step_startReservation {a : Assignment} (ha : s.reservations.get? job.id = some a)
    (hdue : a.start ≤ f.now) (hlast : f.now ≤ a.last) :
    Step f s (startReservation f s job a) (.review job) := by
  simp only [startReservation]
  cases halive : a.resources.subset (f.catalog.inState .alive) with
  | false =>
      simp only [Bool.false_eq_true, if_false]
      have hnotify : ∀ n, Alike s (s.notify n) := fun n => { Alike.refl s with }
      exact .delayed ha hdue hlast halive ((hnotify _).decide ..)
  | true =>
      simp only [if_true]
      by_cases hblockers : (s.evict a.resources).2 = []
      · have hevict : Alike s (s.evict a.resources).1 := by
          refine { Alike.refl s with victims := ?_ }
          simp only [evict] at hblockers ⊢
          rw [hblockers, List.append_nil]
        simp only [hblockers, List.isEmpty_nil, if_true]
        exact .started ha hdue hlast halive hblockers (hevict.decide ..)
      · simp only [List.isEmpty_iff, hblockers, if_false]
        exact .awaited ha hdue hlast halive hblockers (.refl _)

theorem step_reviewReservation : Step f s (reviewReservation f s job) (.review job) := by
  simp only [reviewReservation]
  cases ha : s.reservations.get? job.id with
  | none => exact step_placeReservation (Or.inr ⟨rfl, ha⟩) { Alike.refl s with } rfl
  | some a =>
      by_cases hahead : f.now < a.start
      · simp only [hahead, if_true]
        exact .ahead ha hahead (.refl s)
      · by_cases hlast : a.last < f.now
        · simp only [hahead, hlast, if_true, if_false]
          exact .expired ha (by omega) hlast (.refl _)
        · simp only [hahead, hlast, if_false]
          exact step_startReservation ha (by omega) (by omega)

end Reservations

section Queues

theorem mem_of_mem_matched {results : List (Except Error Candidate)} {e : Alternative × Candidate}
    (h : e ∈ matched job results) : .ok e.2 ∈ results := by
  simp only [matched, List.mem_filterMap] at h
  obtain ⟨⟨a, r⟩, hmem, he⟩ := h
  cases r with
  | error _ => cases he
  | ok c =>
      cases he
      exact (List.of_mem_zip hmem).2

theorem alike_wishWakeup (f : Frame) (job : Job) (candidates : List (Alternative × Candidate))
    (s : PassState) : Alike s (wishWakeup f job candidates s) := by
  simp only [wishWakeup]
  split
  · exact { Alike.refl s with }
  · exact .refl s

theorem step_decideUnmatched {results : List (Except Error Candidate)} (hs : Alike s s') :
    Step f s (s'.decideUnmatched job results) (.consider job) := by
  simp only [decideUnmatched]
  split
  · exact .kept (hs.decide ..)
  · exact .rejected (hs.decide ..)
  · exact .rejected (hs.decide ..)

section Placing

variable {candidates : List (Alternative × Candidate)} (hs : Alike s s')
  (hmatch : ∀ e ∈ candidates, .ok e.2 ∈ (s.matcher.forJob f.catalog job).2)
include hs hmatch

theorem step_placeNow (obstacle : Obstacle) :
    Step f s (placeNow f job candidates obstacle s').1 (.consider job) := by
  have hfits : ∀ fits, Alike s { s' with fits := fits } := fun fits => { hs with }
  rcases placeNow_cases f job candidates obstacle s' with
    ⟨fits, o, h⟩ | ⟨fits, e, he, resources, hfound, h⟩
  · rw [h]
    exact .kept ((hfits fits).decide ..)
  · rw [h]
    rw [hs.attempt_eq] at hfound
    exact .launched ⟨hmatch e he, hfound⟩ (hfits fits).booked.launch

theorem step_placeEarliest : Step f s (placeEarliest f job candidates s').1 (.consider job) := by
  have hfits : ∀ fits, Alike s { s' with fits := fits } := fun fits => { hs with }
  rcases placeEarliest_cases f job candidates s' with
    ⟨fits, note, h⟩ | ⟨fits, p, ⟨hnow, e, he, hcand, hfound⟩, h⟩
  · rw [h]
    exact .kept ((hfits fits).decide ..)
  · rw [h]
    rw [hs.attempt_eq] at hfound
    have hfinds : s.Finds f job p.candidate p.start p.resources := by
      rw [hcand]
      exact ⟨hmatch e he, hfound⟩
    by_cases hstart : p.start = f.now
    · simp only [hstart, if_true] at hfinds ⊢
      exact .launched hfinds (hfits fits).booked.launch
    · simp only [hstart, if_false]
      exact .planned (by omega) hfinds ((hfits fits).booked.decide ..)

theorem step_place : Step f s (place f job candidates s').1 (.consider job) := by
  simp only [place]
  cases f.config.policy with
  | fifo => exact step_placeNow hs hmatch .notEnough
  | backfill => exact step_placeEarliest hs hmatch

end Placing

theorem step_consider : Step f s (consider f s job) (.consider job) := by
  simp only [consider]
  cases s.blocker with
  | some blocker => exact .kept (.refl _)
  | none =>
      obtain ⟨m, results, hresults⟩ : ∃ m results, s.matcher.forJob f.catalog job = (m, results) :=
        ⟨_, _, rfl⟩
      simp only [hresults]
      have hs : Alike s { s with matcher := m, blocker := none } := { Alike.refl s with }
      have hmatch : ∀ e ∈ matched job results, .ok e.2 ∈ (s.matcher.forJob f.catalog job).2 := by
        intro e he
        rw [hresults]
        exact mem_of_mem_matched he
      split
      · exact step_decideUnmatched hs
      · split
        · exact step_place hs hmatch
        · apply (step_place hs hmatch).alike
          exact (alike_wishWakeup f job _ _).trans { Alike.refl _ with }

end Queues

theorem perform_step (f : Frame) (s : PassState) (task : Task) :
    Step f s (perform f s task) task := by
  cases task with
  | review job => exact step_reviewReservation
  | reserve job => exact step_placeReservation (Or.inl rfl) (.refl s) rfl
  | openQueue => exact .opened { Alike.refl s with }
  | consider job => exact step_consider
  | showBestEffort => exact .shown (.refl _)

end PassState
end ClusterPlan
