import ClusterPlan.Proofs.Pass.Launching

/-!
When launched jobs share no resource with other launched jobs or with active ones. All of them hold
their resources at the present second, so it is enough to look at that second.
-/

namespace ClusterPlan

namespace PassState

variable {f : Frame} {m : Matcher} {c c' : Commitment} {row row' : GanttRow} {job : Job}

section Pairs

theorem isLoaded_of_isDue (h : f.IsDue row) : f.IsLoaded row := by
  obtain ⟨_, hactive, hreserved, _⟩ := Frame.standing?_of_reservedAssignment? h.reserved
  exact Or.inr ⟨hactive, hreserved⟩

theorem now_le_heldUntil_of_isDue (h : f.IsDue row) :
    f.now ≤ f.heldUntil row.start row.walltime :=
  le_trans h.lasts (f.last_le_heldUntil row)

theorem disjoint_due_due (hf : f.Consistent) (hrow : row ∈ f.rows) (hrow' : row' ∈ f.rows)
    (hne : row.job ≠ row'.job) (h : f.IsDue row) (h' : f.IsDue row') :
    OrdinalSet.Disjoint (f.rowOrdinals row) (f.rowOrdinals row') := by
  intro o ho ho'
  exact hf.apart row hrow row' hrow' hne (isLoaded_of_isDue h) (isLoaded_of_isDue h') o ho ho' f.now
    h.begun (now_le_heldUntil_of_isDue h) ⟨h'.begun, now_le_heldUntil_of_isDue h'⟩

theorem disjoint_due_active (hf : f.Consistent) (hrow : row ∈ f.rows) (hrow' : row' ∈ f.rows)
    (hne : row.job ≠ row'.job) (h : f.IsDue row) (hactive : f.activeJob? row'.job = some job)
    (hover : f.Overruns row' → OrdinalSet.Disjoint (f.rowOrdinals row) (f.rowOrdinals row')) :
    OrdinalSet.Disjoint (f.rowOrdinals row) (f.rowOrdinals row') := by
  cases hbest : job.isBestEffort with
  | true => exact h.clear row' hrow' _ (Frame.aside?_of_active hactive hbest)
  | false =>
      by_cases hends : f.heldUntil row'.start row'.walltime < f.now
      · exact hover ⟨⟨job, hactive, hbest⟩, hends⟩
      · intro o ho ho'
        exact hf.apart row hrow row' hrow' hne (isLoaded_of_isDue h)
          (Or.inl ⟨job, hactive, hbest⟩) o ho ho' f.now h.begun (now_le_heldUntil_of_isDue h)
          ⟨hf.begun row' hrow' job hactive, by omega⟩

theorem disjoint_now_due (h : LaunchesNow f m c) (hrow : row ∈ f.rows) (hdue : f.IsDue row) :
    OrdinalSet.Disjoint c.placement.assignment.resources (f.rowOrdinals row) := by
  obtain ⟨_, _, _, hoccupied, _⟩ := Frame.standing?_of_reservedAssignment? hdue.reserved
  intro o ho hor
  exact not_holds_of_occupied h.committed hrow hoccupied hor hdue.begun
    (now_le_heldUntil_of_isDue hdue) (h.holds o ho)

theorem disjoint_now_now (h : LaunchesNow f m c) (h' : LaunchesNow f m c')
    (hne : c.job.id ≠ c'.job.id) :
    OrdinalSet.Disjoint c.placement.assignment.resources c'.placement.assignment.resources := by
  have : Std.Symm fun c d : Commitment =>
      ∀ o t, c.placement.Holds o t → ¬ d.placement.Holds o t :=
    ⟨fun _ _ hapart o t hd hc => hapart o t hc hd⟩
  have hapart := (books_finished f m).apart.forall h.committed h'.committed fun heq =>
    hne (heq ▸ rfl)
  intro o ho ho'
  exact hapart o f.now (h.holds o ho) (h'.holds o ho')

/-- No id of an active job is that of something committed. -/
theorem id_ne_of_committed (hf : f.Consistent) (hactive : f.activeJob? row.job = some job)
    (hwaits : c.job ∈ f.waiting) : c.job.id ≠ row.job := by
  obtain ⟨hmem, _, hid⟩ := Frame.mem_of_activeJob? hactive
  exact hid ▸ hf.distinct c.job hwaits job hmem

theorem disjoint_now_active (hf : f.Consistent) (h : LaunchesNow f m c) (hrow : row ∈ f.rows)
    (hactive : f.activeJob? row.job = some job) :
    OrdinalSet.Disjoint c.placement.assignment.resources (f.rowOrdinals row) := by
  have hbegun := hf.begun row hrow job hactive
  have hnow : f.now ≤ max (f.heldUntil row.start row.walltime) f.now := le_max_right _ _
  cases hbest : job.isBestEffort with
  | false =>
      intro o ho hor
      exact not_holds_of_occupied h.committed hrow (occupiedUntil?_of_active hactive hbest) hor
        hbegun hnow (h.holds o ho)
  | true =>
      rcases h.clear with hcbest | hclear
      · -- Both are best-effort jobs: the active one is on the timeline when the other is placed.
        intro o ho hor
        obtain ⟨new, hnew, hall⟩ := commitments_eq f m
        have hcnew : c ∈ new := by
          have hmem := h.committed
          rw [hnew] at hmem
          refine (List.mem_append.1 hmem).resolve_left fun hold => ?_
          rcases (job_of_mem_beforeBestEffort hold).2.2 with hreservation | hregular
          · rw [h.isPlain] at hreservation
            cases hreservation
          · rw [hcbest] at hregular
            cases hregular
        have hother : ∀ d ∈ (beforeBestEffort f m).commitments, d.job.id ≠ row.job := fun d hd =>
          id_ne_of_committed hf hactive (job_of_mem_beforeBestEffort hd).1
        exact not_free_of_bestEffort hrow hactive hbest hother hor hbegun hnow
          ((hall c hcnew).2.2 o f.now (h.holds o ho))
      · exact hclear row hrow _ (Frame.aside?_of_active hactive hbest)

end Pairs

end PassState

/-- Launched jobs have resources, and share none with other jobs that are launched or active. -/
def LaunchesApart (f : Frame) (m : Matcher) : Prop :=
  ∀ d ∈ (f.run m).report.decisions, d.outcome = .toLaunch → ∃ a, d.assignment = some a ∧
    (∀ d' ∈ (f.run m).report.decisions, d'.outcome = .toLaunch → d.job ≠ d'.job →
      ∃ a', d'.assignment = some a' ∧ OrdinalSet.Disjoint a.resources a'.resources) ∧
    ∀ row ∈ f.rows, ∀ job, f.activeJob? row.job = some job → d.job ≠ row.job →
      OrdinalSet.Disjoint a.resources (f.rowOrdinals row)

/-- Nothing looks for regular jobs when a reservation is due, so the one case in which a launched
job meets another is an active job that overruns into a due reservation. -/
theorem launchesApart_iff {f : Frame} (m : Matcher) (hf : f.Consistent) :
    LaunchesApart f m ↔
      ∀ row ∈ f.rows, f.IsDue row → ∀ row' ∈ f.rows, f.Overruns row' →
        OrdinalSet.Disjoint (f.rowOrdinals row) (f.rowOrdinals row') := by
  constructor
  · intro h row hrow hdue row' hrow' hover
    obtain ⟨d, hd, hlaunch, hjob, hassignment⟩ :=
      PassState.exists_launch_of_due (m := m) hrow hdue
    obtain ⟨a, ha, _, hactive⟩ := h d hd hlaunch
    obtain ⟨⟨job, hjob', _⟩, _⟩ := hover
    rw [hassignment] at ha
    cases ha
    refine hactive row' hrow' job hjob' ?_
    -- The one job is active, the other is not.
    intro heq
    obtain ⟨_, hnone, _⟩ := Frame.standing?_of_reservedAssignment? hdue.reserved
    rw [← hjob, heq, hjob'] at hnone
    cases hnone
  · intro h d hd hlaunch
    rcases PassState.launch_cases hd hlaunch with
      ⟨row, hrow, hdue, hjob, hassignment⟩ | ⟨c, hc, hjob, hassignment⟩
    · refine ⟨_, hassignment, fun d' hd' hlaunch' hne => ?_, fun row' hrow' job hactive hne => ?_⟩
      · rcases PassState.launch_cases hd' hlaunch' with
          ⟨row', hrow', hdue', hjob', hassignment'⟩ | ⟨c', hc', hjob', hassignment'⟩
        · rw [hjob, hjob'] at hne
          exact ⟨_, hassignment', PassState.disjoint_due_due hf hrow hrow' hne hdue hdue'⟩
        · refine ⟨_, hassignment', fun o ho ho' => ?_⟩
          exact PassState.disjoint_now_due hc' hrow hdue o ho' ho
      · rw [hjob] at hne
        exact PassState.disjoint_due_active hf hrow hrow' hne hdue hactive
          (h row hrow hdue row' hrow')
    · refine ⟨_, hassignment, fun d' hd' hlaunch' hne => ?_, fun row' hrow' job hactive _ => ?_⟩
      · rcases PassState.launch_cases hd' hlaunch' with
          ⟨row', hrow', hdue', _, hassignment'⟩ | ⟨c', hc', hjob', hassignment'⟩
        · exact ⟨_, hassignment', PassState.disjoint_now_due hc hrow' hdue'⟩
        · rw [hjob, hjob'] at hne
          exact ⟨_, hassignment', PassState.disjoint_now_now hc hc' hne⟩
      · exact PassState.disjoint_now_active hf hc hrow' hactive

section Overrun

/-- A reservation that is granted for the second 90. -/
def grantedReservation : Job :=
  { exampleJob 2 [] 1 with reservation := .scheduled, requestedStart := some 90 }

/-- One resource, which job 1 should have left at 50 and which is reserved for job 2 from 90 on. -/
def overrunFrame : Frame where
  now := 100
  catalog := ⟨1, [⟨1, .alive, none, none, []⟩], by decide⟩
  gantt := [⟨1, 10, 0, 50, [1]⟩, ⟨2, 20, 90, 50, [1]⟩]
  active := [{ exampleJob 1 [] 1 with state := .running }]
  waiting := [grantedReservation]
  wakeLead := 0
  config := { Config.default with securityTime := 0 }
  order := JobOrder.oldestFirst
  remembersFits := true

theorem agenda_overrunFrame :
    overrunFrame.agenda =
      [.review grantedReservation, .openQueue, .showBestEffort, .openQueue] := by
  cbv

theorem rows_overrunFrame : overrunFrame.rows = [⟨1, 10, 0, 50, [1]⟩, ⟨2, 20, 90, 50, [1]⟩] := by
  decide

theorem consistent_overrunFrame : overrunFrame.Consistent := by
  have hfirst : overrunFrame.heldUntil 0 50 = 49 := by decide
  have hnow : overrunFrame.now = 100 := rfl
  refine ⟨?_, ?_, by decide⟩
  · rw [rows_overrunFrame]
    intro row hrow job _
    simp only [List.mem_cons, List.not_mem_nil, or_false] at hrow
    rcases hrow with rfl | rfl <;> simp only [hnow] <;> omega
  · rw [rows_overrunFrame]
    intro row hrow row' hrow' hne _ _ o _ _ t
    simp only [List.mem_cons, List.not_mem_nil, or_false] at hrow hrow'
    rcases hrow with rfl | rfl <;> rcases hrow' with rfl | rfl <;> simp only [hfirst] <;> omega

theorem launchesApart_iff_overrun :
    overrunFrame.Consistent ∧
      (LaunchesApart overrunFrame .empty ↔
        ∀ row ∈ overrunFrame.rows, overrunFrame.IsDue row →
          ∀ row' ∈ overrunFrame.rows, overrunFrame.Overruns row' →
            OrdinalSet.Disjoint (overrunFrame.rowOrdinals row) (overrunFrame.rowOrdinals row')) :=
  ⟨consistent_overrunFrame, launchesApart_iff .empty consistent_overrunFrame⟩

/-- Job 2 is launched on the resource that job 1 still holds. -/
theorem not_launchesApart_overrun :
    overrunFrame.Consistent ∧ ¬ LaunchesApart overrunFrame .empty := by
  refine ⟨consistent_overrunFrame, fun h => ?_⟩
  have hdecisions : (overrunFrame.run .empty).report.decisions =
      [⟨2, .toLaunch, .toLaunch, .scheduled, .reservationStarts 90 100, true,
        some ⟨20, 90, 50, .single 0⟩⟩] := by
    simp only [Frame.run, PassState.report, PassState.finished, agenda_overrunFrame]
    decide +kernel
  obtain ⟨a, ha, _, hactive⟩ := h _ (by rw [hdecisions]; exact List.mem_cons_self) rfl
  cases ha
  exact hactive ⟨1, 10, 0, 50, [1]⟩ (by decide) { exampleJob 1 [] 1 with state := .running }
    (by decide) (by decide) 0 (by decide) (by decide)

end Overrun

end ClusterPlan
