import ClusterPlan.Proofs.Catalog.Groups
import ClusterPlan.Proofs.Pass.Exclusion
import ClusterPlan.Proofs.Pass.Knowledge

/-!
Placements respect what the resources offer. A resource is closed in the windows in which it cannot be
used, and what a pass commits was free, so it lies outside of them from its start to the end of its
security time.
-/

namespace ClusterPlan

namespace Frame

/-- Whether a resource may be used from `start` to `last`. It is up, or, where power is saved, it can be
woken by then; an availability that ends before it could be up is out of date. -/
inductive Offers (f : Frame) (r : Resource) (start last : Int) : Prop where
  | up : r.state = .alive → (∀ upto, r.availableUpto = some upto → last ≤ upto) →
      Offers f r start last
  | woken : r.state = .absent → f.config.energy.isSome = true → f.now + f.lead ≤ start →
      (∀ upto, r.availableUpto = some upto → upto ≤ f.now + f.lead ∨ last ≤ upto) →
      Offers f r start last

/-- An assignment that lies on the timeline and whose resources may be used while they are held. -/
structure Affords (f : Frame) (a : Assignment) : Prop where
  notBefore : f.now ≤ a.start
  ends : a.start + a.walltime - 1 ≤ f.horizon
  offered : ∀ o ∈ a.resources, ∃ r, f.catalog.resource? o = some r ∧
    f.Offers r a.start (min (a.start + a.walltime - 1 + f.security) f.horizon)

/-- Whether none of the windows in which the resource cannot be used contains `t`. -/
def OpenAt (f : Frame) (r : Resource) (t : Int) : Prop :=
  ∀ w ∈ f.closedWindows r, ¬ (w.1 ≤ t ∧ t ≤ w.2)

variable {f : Frame} {r : Resource} {o : Nat} {start last t : Int}

theorem mem_closures {w : Int × Int × Nat} :
    w ∈ f.closures ↔
      ∃ r, f.catalog.resource? w.2.2 = some r ∧ (w.1, w.2.1) ∈ f.closedWindows r := by
  simp only [closures, List.mem_flatMap, List.mem_zipIdx_iff_getElem?, List.mem_map,
    Catalog.resource?]
  constructor
  · rintro ⟨⟨r, o⟩, hr, window, hwindow, rfl⟩
    exact ⟨r, hr, hwindow⟩
  · rintro ⟨r, hr, hwindow⟩
    exact ⟨(r, w.2.2), hr, (w.1, w.2.1), hwindow, rfl⟩

theorem openAt_of_closures (hr : f.catalog.resource? o = some r)
    (h : ∀ w ∈ f.closures, ¬ (w.1 ≤ t ∧ t ≤ w.2.1 ∧ o = w.2.2)) : f.OpenAt r t := by
  intro w hw hcontains
  have hclosure : (w.1, w.2, o) ∈ f.closures := mem_closures.2 ⟨r, hr, hw⟩
  exact h _ hclosure ⟨hcontains.1, hcontains.2, rfl⟩

theorem not_closed_to_the_end (hnow : f.now ≤ t) (ht : t ≤ f.horizon) (h : f.OpenAt r t) :
    (f.now, Time.lastInstant) ∉ f.closedWindows r := by
  intro hwindow
  refine h _ hwindow ⟨hnow, ?_⟩
  rw [horizon] at ht
  exact le_trans ht (min_le_right _ _)

section Windows

variable (hclock : Time.earliest ≤ f.now) (hnow : f.now ≤ t) (ht : t ≤ f.horizon)
include hclock hnow ht

/-- The window after the end of an availability is closed up to the end of every timeline. -/
theorem le_of_not_after {upto : Int}
    (h : ¬ (Time.later upto 1 ≤ t ∧ t ≤ Time.lastInstant)) : t ≤ upto := by
  simp only [Time.later, horizon, Time.earliest, Time.latest, Time.lastInstant, Number.leastInt,
    Number.greatestInt] at *
  omega

/-- A second that is not in the window up to the wake-up has all of the lead before it. -/
theorem le_of_not_before (h : f.now < f.wakeReady → ¬ (f.now ≤ t ∧ t ≤ f.wakeReady - 1)) :
    f.now + f.lead ≤ t := by
  simp only [wakeReady, Time.later, horizon, Time.earliest, Time.latest, Time.lastInstant,
    Number.leastInt, Number.greatestInt] at *
  omega

theorem OpenAt.le_of_alive {upto : Int} (h : f.OpenAt r t) (hstate : r.state = .alive)
    (hupto : r.availableUpto = some upto) : t ≤ upto := by
  refine le_of_not_after hclock hnow ht (h (Time.later upto 1, Time.lastInstant) ?_)
  simp [closedWindows, hstate, hupto]

variable (hstate : r.state = .absent) (henergy : f.config.energy.isSome = true)
include hstate henergy

theorem OpenAt.woken (h : f.OpenAt r t) : f.now + f.lead ≤ t := by
  refine le_of_not_before hclock hnow ht fun hready => h (f.now, f.wakeReady - 1) ?_
  simp [closedWindows, hstate, henergy, hready]

theorem OpenAt.le_of_absent {upto : Int} (h : f.OpenAt r t) (hupto : r.availableUpto = some upto) :
    upto ≤ f.now + f.lead ∨ t ≤ upto := by
  by_cases hstale : f.wakeReady < upto
  · right
    refine le_of_not_after hclock hnow ht (h (Time.later upto 1, Time.lastInstant) ?_)
    simp [closedWindows, hstate, henergy, hupto, hstale]
  · left
    have hlead : 0 ≤ f.lead := Int.le_max_right _ _
    simp only [wakeReady, Time.later, Time.earliest, Time.latest, Number.leastInt,
      Number.greatestInt] at *
    omega

end Windows

/-- A resource that is open at each second of a window may be used in it. -/
theorem offers_of_openAt (hclock : Time.earliest ≤ f.now) (hdead : r.state ≠ .dead)
    (hnow : f.now ≤ start) (hhorizon : start ≤ f.horizon) (hlast : last ≤ f.horizon)
    (hopen : ∀ t, start ≤ t → t ≤ max start last → f.OpenAt r t) : f.Offers r start last := by
  have hstart := hopen start (le_refl _) (le_max_left _ _)
  have hend := hopen (max start last) (le_max_left _ _) (le_refl _)
  have hnow' : f.now ≤ max start last := le_trans hnow (le_max_left _ _)
  have hends : max start last ≤ f.horizon := max_le hhorizon hlast
  cases hstate : r.state with
  | dead => exact absurd hstate hdead
  | suspected =>
      refine absurd ?_ (not_closed_to_the_end hnow hhorizon hstart)
      simp [closedWindows, hstate]
  | alive =>
      refine .up hstate fun upto hupto => ?_
      exact le_trans (le_max_right _ _) (hend.le_of_alive hclock hnow' hends hstate hupto)
  | absent =>
      cases henergy : f.config.energy.isSome with
      | false =>
          refine absurd ?_ (not_closed_to_the_end hnow hhorizon hstart)
          simp [closedWindows, hstate, henergy]
      | true =>
          refine .woken hstate henergy (hstart.woken hclock hnow hhorizon hstate henergy)
            fun upto hupto => ?_
          exact (hend.le_of_absent hclock hnow' hends hstate henergy hupto).imp_right
            (le_trans (le_max_right _ _))

end Frame

namespace PassState

variable {f : Frame} {s s' : PassState} {m : Matcher} {c : Commitment} {task : Task} {o : Nat}
  {t : Int}

theorem times_start (f : Frame) (m : Matcher) : f.Times (start f m).timeline := by
  have hloaded := loaded_start f m
  exact ⟨hloaded.wellFormed, hloaded.origin, hloaded.horizon⟩

theorem times_run (tasks : List Task) (hs : f.Times s.timeline) :
    f.Times (tasks.foldl (perform f) s).timeline := by
  induction tasks generalizing s with
  | nil => exact hs
  | cons task rest ih => exact ih ((perform_step f s task).times hs)

/-- What is free before the first task is open. -/
theorem openAt_of_free (h : (start f m).timeline.Free o t) :
    ∃ r, f.catalog.resource? o = some r ∧ r.state ≠ .dead ∧ f.OpenAt r t := by
  obtain ⟨⟨_, _, hschedulable⟩, hclosures, _⟩ := ((loaded_start f m).free o t).1 h
  obtain ⟨r, hr, hstate⟩ := Catalog.mem_schedulable.1 hschedulable
  exact ⟨r, hr, hstate, Frame.openAt_of_closures hr hclosures⟩

/-- Nothing is placed before now. -/
theorem Step.start_of_commits (h : Step f s s' task) (hc : Commits f s s' task c) :
    f.now ≤ c.placement.assignment.start := by
  have hsame := hc.commitments
  have hbooked : ∀ {job a start resources},
      (s.booked f job a start resources).commitments = s.commitments ++ [c] → f.now ≤ start →
        f.now ≤ c.placement.assignment.start := by
    intro job a start resources hbooked hstart
    rw [booked, List.append_cancel_left_eq, List.singleton_inj] at hbooked
    rw [← hbooked]
    exact hstart
  cases h with
  | opened hs | ahead _ _ hs | delayed _ _ _ _ hs | awaited _ _ _ _ _ hs | started _ _ _ _ _ hs
  | refused _ hs | kept hs | rejected hs | shown hs | expired _ _ _ hs =>
      have hsame' := hs.commitments
      rw [hsame] at hsame'
      simp [decide, keepWaiting, refuse, evict, abandon, occupyBestEffort] at hsame'
  | granted _ _ hnow _ hs => exact hbooked (hs.commitments ▸ hsame) hnow
  | planned hnow _ hs => exact hbooked (hs.commitments ▸ hsame) (le_of_lt hnow)
  | launched _ hs =>
      obtain ⟨hlaunch, _⟩ := launch_books (s.booked ..) ..
      exact hbooked ((hs.commitments.trans hlaunch) ▸ hsame) (le_refl _)

/-- A placement ends by the horizon. -/
theorem Commits.ends (h : Commits f s s' task c) (hs : f.Times s.timeline) :
    c.placement.assignment.start + c.placement.assignment.walltime - 1 ≤ f.horizon := by
  obtain ⟨a, hfinds, hwalltime⟩ := h.isFound
  have hend := windowEnd_of_attempt hfinds.isFound
  rw [hs.horizon, hwalltime] at hend
  simp only [Time.windowEnd, Time.later, Frame.horizon, Time.earliest, Time.latest,
    Time.lastInstant, Number.leastInt, Number.greatestInt] at *
  omega

/-- A committed resource is open at its start and at each second up to the end of its security time. -/
theorem openAt_of_committed (hc : c ∈ (finished f m).commitments)
    (ho : o ∈ c.placement.assignment.resources) :
    ∃ r, f.catalog.resource? o = some r ∧ r.state ≠ .dead ∧
      ∀ t, c.placement.assignment.start ≤ t → t ≤ c.placement.heldUntil → f.OpenAt r t := by
  have hfree := (committed_of_task hc).2.2 o
  obtain ⟨r, hr, hdead, _⟩ := openAt_of_free (hfree _ (holds_start_of_committed hc ho))
  refine ⟨r, hr, hdead, fun t hstart hlast => ?_⟩
  obtain ⟨r', hr', _, hopen⟩ := openAt_of_free (hfree t ⟨ho, hstart, hlast⟩)
  rw [hr, Option.some.injEq] at hr'
  exact hr' ▸ hopen

end PassState

theorem affords_of_committed {f : Frame} {m : Matcher} {c : Commitment}
    (hclock : Time.earliest ≤ f.now) (hc : c ∈ (f.run m).report.commitments) :
    f.Affords c.placement.assignment := by
  obtain ⟨front, task, back, _, hcommits⟩ := PassState.task_of_committed hc
  have hnow := (PassState.perform_step f _ task).start_of_commits hcommits
  refine ⟨hnow, hcommits.ends (PassState.times_run front (PassState.times_start f m)),
    fun o ho => ?_⟩
  obtain ⟨r, hr, hdead, hopen⟩ := PassState.openAt_of_committed hc ho
  have hheld := (PassState.committed_of_task hc).2.1
  have hstart := (PassState.holds_start_of_committed hc ho).2.2
  -- Sums that stop at the bounds of 64-bit time only make the time longer for which it is held.
  have hlast : min (c.placement.assignment.start + c.placement.assignment.walltime - 1 +
      f.security) f.horizon ≤ c.placement.heldUntil := by
    rw [hheld, Frame.heldOnTimeline]
    exact le_min (Frame.le_heldUntil (min_le_left _ _) (min_le_right _ _)) (min_le_right _ _)
  have hhorizon : c.placement.assignment.start ≤ f.horizon := by
    rw [hheld, Frame.heldOnTimeline] at hstart
    exact le_trans hstart (min_le_right _ _)
  exact ⟨r, hr, Frame.offers_of_openAt hclock hdead hnow hhorizon (min_le_right _ _)
    fun t hfirst ht => hopen t hfirst (le_trans ht (max_le hstart hlast))⟩

section Wakeup

/-- One resource is up for a while, and one sleeps whose availability is out of date. -/
def sleepingFrame : Frame :=
  { twoResourceFrame 9 with
    catalog :=
      ⟨1, [⟨1, .alive, some 144, none, []⟩, ⟨2, .absent, some 90, none, []⟩], by decide⟩
    gantt := []
    active := []
    waiting := [exampleJob 1 [] 2]
    wakeLead := 30
    config :=
      { Config.default with
        securityTime := 5
        policy := .backfill
        energy := some ⟨600, 60, 30⟩ } }

theorem agenda_sleepingFrame :
    sleepingFrame.agenda =
      [.openQueue, .consider (exampleJob 1 [] 2), .showBestEffort, .openQueue] := by
  cbv

def wokenCommitment : Commitment where
  job := exampleJob 1 [] 2
  placement := ⟨144, ⟨10, 130, 10, .ofIds [0, 1]⟩⟩

/-- The job starts when the second resource can be up, and the first is just available for as long. -/
theorem affords_of_committed_sleeping :
    Time.earliest ≤ sleepingFrame.now ∧
      wokenCommitment ∈ (sleepingFrame.run .empty).report.commitments ∧
      sleepingFrame.Affords wokenCommitment.placement.assignment := by
  have hrun : wokenCommitment ∈ (sleepingFrame.run .empty).report.commitments := by
    simp only [Frame.run, PassState.report, PassState.finished, agenda_sleepingFrame]
    decide +kernel
  have hclock : Time.earliest ≤ sleepingFrame.now := by decide
  exact ⟨hclock, hrun, affords_of_committed hclock hrun⟩

end Wakeup

end ClusterPlan
