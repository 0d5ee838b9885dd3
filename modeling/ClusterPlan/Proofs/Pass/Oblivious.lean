import ClusterPlan.Proofs.Pass.Knowledge
import ClusterPlan.Proofs.Pass.Simulation

/-!
What a matcher remembers is no part of what a pass reports. Two passes over one frame do the same, task
by task, if both of their matchers are ready for the catalog.
-/

namespace ClusterPlan

namespace PassState

variable {f : Frame} {s s' : PassState} {job : Job} {m m' : Matcher}

/-- The state with another matcher. -/
def withMatcher (s : PassState) (m : Matcher) : PassState := { s with matcher := m }

section Commuting

variable (f s m)

theorem claimStanding_withMatcher (job : Job) (units : Nat) (first last : Int) :
    (s.withMatcher m).claimStanding job units first last =
      (s.claimStanding job units first last).withMatcher m := by
  simp only [claimStanding]
  split <;> rfl

theorem booked_withMatcher (job : Job) (c : Candidate) (start : Int) (resources : OrdinalSet) :
    (s.withMatcher m).booked f job c start resources =
      (s.booked f job c start resources).withMatcher m := by
  simp only [booked, claimStanding_withMatcher]
  rfl

theorem evict_withMatcher (resources : OrdinalSet) :
    (s.withMatcher m).evict resources =
      ((s.evict resources).1.withMatcher m, (s.evict resources).2) :=
  rfl

theorem launch_withMatcher (job : Job) (c : Candidate) (resources : OrdinalSet) :
    (s.withMatcher m).launch job c resources = (s.launch job c resources).withMatcher m := by
  simp only [launch, evict_withMatcher]
  cases job.isBestEffort <;> simp only [Bool.false_eq_true, if_false, if_true] <;> split <;> rfl

theorem startReservation_withMatcher (job : Job) (a : Assignment) :
    startReservation f (s.withMatcher m) job a = (startReservation f s job a).withMatcher m := by
  simp only [startReservation, evict_withMatcher]
  split
  · by_cases hclear : (s.evict a.resources).2.isEmpty = true <;> simp only [hclear] <;> rfl
  · rfl

theorem wishWakeup_withMatcher (job : Job) (candidates : List (Alternative × Candidate)) :
    wishWakeup f job candidates (s.withMatcher m) =
      (wishWakeup f job candidates s).withMatcher m := by
  simp only [wishWakeup]
  rw [show (s.withMatcher m).wakeTrial? f job candidates = s.wakeTrial? f job candidates from rfl]
  cases s.wakeTrial? f job candidates <;> rfl

theorem rowResources_withMatcher (row : GanttRow) :
    (s.withMatcher m).rowResources f row =
      ((s.rowResources f row).1.withMatcher m, (s.rowResources f row).2) := by
  simp only [rowResources]
  split <;> rfl

theorem loadRow_withMatcher (row : GanttRow) :
    loadRow f (s.withMatcher m) row = (loadRow f s row).withMatcher m := by
  simp only [loadRow, rowResources_withMatcher]
  cases f.standing? row with
  | none => rfl
  | some e =>
      obtain ⟨job, last⟩ := e
      obtain ⟨t, resources⟩ := s.rowResources f row
      simp only
      by_cases haside : (job.isBestEffort && job.state.isActive) = true
      · rw [if_pos haside, if_pos haside]
        rfl
      · rw [if_neg haside, if_neg haside]
        by_cases hquota : job.isWithoutQuotas = true <;> simp only [claimStanding, hquota] <;>
          split <;> rfl

theorem load_withMatcher : (s.withMatcher m).load f = (s.load f).withMatcher m := by
  simp only [load]
  rw [← List.foldl_hom (fun t : PassState => t.withMatcher m)
    (fun t row => loadRow_withMatcher f t m row)]
  congr 1
  exact List.foldl_hom (fun t : PassState => t.withMatcher m) fun _ _ => rfl

theorem noticeUnknownQueues_withMatcher :
    noticeUnknownQueues f (s.withMatcher m) = (noticeUnknownQueues f s).withMatcher m :=
  List.foldl_hom (fun t : PassState => t.withMatcher m) fun _ _ => rfl

theorem startReservation_memory (job : Job) (a : Assignment) :
    SameMemory s (startReservation f s job a) := by
  simp only [startReservation]
  split
  · split <;> exact ⟨rfl, rfl, rfl⟩
  · exact ⟨rfl, rfl, rfl⟩

end Commuting

/-- The states differ in nothing but their matchers, and both of these answer for the catalog. -/
inductive Twins (f : Frame) (s : PassState) : PassState → Prop where
  | intro {m : Matcher} : s.matcher.Serves f.catalog → m.Serves f.catalog →
      Twins f s (s.withMatcher m)

namespace Twins

/-- No task tells twins apart: all that it learns from a matcher are answers. -/
theorem simulation (f : Frame) : Simulation f (fun _ => True) (Twins f) where
  answers job h := by
    obtain ⟨hs, hs'⟩ := h
    exact (forJob_eq hs' job).trans (forJob_eq hs job).symm
  timeline h := by cases h; rfl
  fits h := by cases h; rfl
  blocker h := by cases h; rfl
  reservation h _ := by cases h; rfl
  attempt h _ := by cases h; rfl
  asked job h := by
    obtain ⟨hs, hs'⟩ := h
    exact .intro (forJob_serves hs job) (forJob_serves hs' job)
  withBlocker _ h := by
    obtain ⟨hs, hs'⟩ := h
    exact .intro hs hs'
  wish job candidates h := by
    obtain ⟨hs, hs'⟩ := h
    rw [wishWakeup_withMatcher]
    exact .intro (by rwa [(wishWakeup_memory ..).matcher]) hs'
  notify _ h := by
    obtain ⟨hs, hs'⟩ := h
    exact .intro hs hs'
  remember _ _ h := by
    obtain ⟨hs, hs'⟩ := h
    exact .intro hs hs'
  decide _ _ _ _ h _ := by
    obtain ⟨hs, hs'⟩ := h
    exact .intro hs hs'
  booked c start resources h _ := by
    obtain ⟨hs, hs'⟩ := h
    rw [booked_withMatcher]
    exact .intro (by rwa [(booked_memory ..).matcher]) hs'
  launch c resources h _ := by
    obtain ⟨hs, hs'⟩ := h
    rw [launch_withMatcher]
    exact .intro (by rwa [(launch_memory ..).matcher]) hs'
  start a h _ := by
    obtain ⟨hs, hs'⟩ := h
    rw [startReservation_withMatcher]
    exact .intro (by rwa [(startReservation_memory ..).matcher]) hs'
  abandon h _ := by
    obtain ⟨hs, hs'⟩ := h
    exact .intro hs hs'

theorem perform (h : Twins f s s') (task : Task) :
    Twins f (PassState.perform f s task) (PassState.perform f s' task) := by
  by_cases hshow : task = .showBestEffort
  · obtain ⟨hs, hs'⟩ := h
    rw [hshow]
    exact .intro hs hs'
  · exact (simulation f).perform h hshow fun _ _ => trivial

theorem run (h : Twins f s s') (tasks : List Task) :
    Twins f (tasks.foldl (PassState.perform f) s) (tasks.foldl (PassState.perform f) s') := by
  induction tasks generalizing s s' with
  | nil => exact h
  | cons task rest ih => exact ih (h.perform task)

theorem of_start (h : m.Ready f.catalog) (h' : m'.Ready f.catalog) :
    Twins f (start f m) (start f m') := by
  have hstart : start f m' = (start f m).withMatcher (m'.bind f.catalog) := by
    rw [start, start, ← noticeUnknownQueues_withMatcher, ← load_withMatcher]
    rfl
  rw [hstart]
  exact .intro (informed_start h).serves (Matcher.serves_bind h')

end Twins

end PassState

/-- Passes over one frame report the same, whatever their matchers remember. -/
theorem Frame.report_run_eq {f : Frame} {m m' : Matcher} (h : m.Ready f.catalog)
    (h' : m'.Ready f.catalog) : (f.run m').report = (f.run m).report := by
  have hfinished := (PassState.Twins.of_start h h').run f.agenda
  simp only [Frame.run, PassState.finished]
  generalize f.agenda.foldl (PassState.perform f) (PassState.start f m) = s at hfinished
  generalize f.agenda.foldl (PassState.perform f) (PassState.start f m') = s' at hfinished
  cases hfinished
  rfl

/-- What a pass leaves in its matcher serves the next one over the same catalog. -/
theorem Frame.ready_run {f : Frame} {m : Matcher} (h : m.Ready f.catalog) :
    (f.run m).matcher.Ready f.catalog :=
  (PassState.informed_run f.agenda (PassState.informed_start h)).serves.ready

end ClusterPlan
