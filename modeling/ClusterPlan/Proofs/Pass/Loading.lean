import ClusterPlan.Proofs.Pass.Step
import ClusterPlan.Proofs.Table
import ClusterPlan.Proofs.Timeline.Occupations

/-!
What stands when the first task of a pass begins. Each row stands for itself: what is free, placed,
reserved or kept aside can be told from the rows and the closed windows alone.
-/

namespace ClusterPlan

namespace Frame

variable {f : Frame} {row : GanttRow} {job : Job} {id last : Int}

/-- The ordinals of a row in the catalog of the pass. -/
def rowOrdinals (f : Frame) (row : GanttRow) : OrdinalSet := f.catalog.knownIds row.resources

def rowAssignment (f : Frame) (row : GanttRow) : Assignment :=
  ⟨row.alternative, row.start, row.walltime, f.rowOrdinals row⟩

/-- Active best-effort jobs are kept aside. -/
def keepsAside (job : Job) : Bool := job.isBestEffort && job.state.isActive

/-- The placement that stands for a row. -/
def standingPlacement? (f : Frame) (row : GanttRow) : Option Placement :=
  (f.standing? row).map fun e => ⟨e.2, f.rowAssignment row⟩

/-- The last second at which a row takes its resources from everyone. -/
def occupiedUntil? (f : Frame) (row : GanttRow) : Option Int :=
  (f.standing? row).bind fun e => if keepsAside e.1 then none else some e.2

/-- What a row takes from everyone. -/
def occupation? (f : Frame) (row : GanttRow) : Option Occupation :=
  (f.occupiedUntil? row).map fun last => ⟨row.start, last, f.rowOrdinals row⟩

/-- The resources of a row that is kept aside. -/
def aside? (f : Frame) (row : GanttRow) : Option (Int × OrdinalSet) :=
  (f.standing? row).bind fun e => if keepsAside e.1 then some (row.job, f.rowOrdinals row) else none

/-- The assignment of a granted reservation that has not begun. -/
def reservedAssignment? (f : Frame) (row : GanttRow) : Option Assignment :=
  (f.standing? row).bind fun e =>
    if e.1.reservation == .scheduled && !e.1.state.isActive then some (f.rowAssignment row) else none

theorem reservedAssignment?_of_waiting (hstanding : f.standing? row = some (job, last))
    (hflag : job.reservation = .scheduled) (hstate : job.state = .waiting) :
    f.reservedAssignment? row = some (f.rowAssignment row) := by
  rw [reservedAssignment?, hstanding, Option.bind_some, hflag, hstate]
  rfl

theorem mem_of_activeJob? (h : f.activeJob? id = some job) :
    job ∈ f.active ∧ job.state.isActive = true ∧ job.id = id := by
  have hmem := List.mem_of_find?_eq_some h
  have hprop := List.find?_some h
  simp only [List.mem_reverse, Bool.and_eq_true, beq_iff_eq] at hmem hprop
  exact ⟨hmem, hprop⟩

theorem mem_of_reservedJob? (h : f.reservedJob? id = some job) :
    job ∈ f.waiting ∧ job.reservation = .scheduled ∧ job.id = id := by
  have hmem := List.mem_of_find?_eq_some h
  have hprop := List.find?_some h
  simp only [List.mem_reverse, Bool.and_eq_true, beq_iff_eq] at hmem hprop
  exact ⟨hmem, hprop⟩

theorem standing?_of_active (h : f.activeJob? row.job = some job) :
    f.standing? row = some (job, max (f.heldUntil row.start row.walltime) f.now) := by
  simp only [standing?, h]

theorem standing?_of_reserved (hactive : f.activeJob? row.job = none)
    (h : f.reservedJob? row.job = some job) :
    f.standing? row = some (job, f.heldUntil row.start row.walltime) := by
  simp only [standing?, hactive, h, Option.map_some]

theorem standing?_cases (h : f.standing? row = some (job, last)) :
    f.activeJob? row.job = some job ∧ last = max (f.heldUntil row.start row.walltime) f.now ∨
      f.activeJob? row.job = none ∧ f.reservedJob? row.job = some job ∧
        last = f.heldUntil row.start row.walltime := by
  simp only [standing?] at h
  cases hactive : f.activeJob? row.job with
  | some j =>
      simp only [hactive, Option.some.injEq, Prod.mk.injEq] at h
      obtain ⟨rfl, rfl⟩ := h
      exact Or.inl ⟨rfl, rfl⟩
  | none =>
      simp only [hactive, Option.map_eq_some_iff, Prod.mk.injEq] at h
      obtain ⟨j, hj, rfl, rfl⟩ := h
      exact Or.inr ⟨rfl, hj, rfl⟩

/-- A row stands for an active job or for a waiting one with a granted reservation. -/
theorem isSome_standing?_iff : (f.standing? row).isSome = true ↔
    (∃ job ∈ f.active, job.state.isActive = true ∧ job.id = row.job) ∨
      ∃ job ∈ f.waiting, job.reservation = .scheduled ∧ job.id = row.job := by
  have hactive : (f.activeJob? row.job).isSome = true ↔
      ∃ job ∈ f.active, job.state.isActive = true ∧ job.id = row.job := by
    simp [activeJob?]
  have hreserved : (f.reservedJob? row.job).isSome = true ↔
      ∃ job ∈ f.waiting, job.reservation = .scheduled ∧ job.id = row.job := by
    simp [reservedJob?]
  rw [← hactive, ← hreserved, standing?]
  cases f.activeJob? row.job <;> simp

theorem id_of_standing? (h : f.standing? row = some (job, last)) : job.id = row.job := by
  rcases standing?_cases h with ⟨h, _⟩ | ⟨_, h, _⟩
  · exact (mem_of_activeJob? h).2.2
  · exact (mem_of_reservedJob? h).2.2

/-- No two rows of a pass are of the same job. -/
theorem ascending_rows (f : Frame) : Table.Ascending GanttRow.job f.rows :=
  Table.ascending_ofList f.gantt

theorem rows_distinct (f : Frame) : f.rows.Pairwise fun r r' => r.job ≠ r'.job :=
  f.ascending_rows.imp fun h => by omega

end Frame

namespace PassState

variable {f : Frame} {s : PassState} {row : GanttRow} {job : Job} {o : Nat} {t last : Int}

section Rows

theorem rowResources_eq (s : PassState) (f : Frame) (row : GanttRow) :
    ∃ notices, s.rowResources f row = ({ s with notices := notices }, f.rowOrdinals row) := by
  simp only [rowResources, Frame.rowOrdinals]
  cases hset : f.catalog.ofIds row.resources with
  | error e => exact ⟨_, rfl⟩
  | ok set =>
      refine ⟨s.notices, ?_⟩
      simp only [Catalog.ofIds] at hset
      split at hset
      · cases hset
      · cases hset
        rfl

theorem loadRow_of_not_standing (h : f.standing? row = none) (s : PassState) :
    loadRow f s row = s := by
  simp only [loadRow, h]

/-- A row that is kept aside is placed and takes nothing from anyone. -/
theorem loadRow_of_keepsAside (h : f.standing? row = some (job, last))
    (haside : Frame.keepsAside job = true) (s : PassState) :
    ∃ notices, loadRow f s row = { s with
      notices := notices
      placements := s.placements.put row.job ⟨last, f.rowAssignment row⟩
      bestEffort := s.bestEffort ++ [(row.job, f.rowOrdinals row)] } := by
  obtain ⟨notices, hrow⟩ := rowResources_eq s f row
  refine ⟨notices, ?_⟩
  rw [Frame.keepsAside] at haside
  simp only [loadRow, h, hrow, haside, if_true, Frame.id_of_standing? h, Frame.rowAssignment]

/-- Any other row that stands is placed, takes its resources from everyone and claims them. -/
theorem loadRow_of_not_keepsAside (h : f.standing? row = some (job, last))
    (haside : Frame.keepsAside job = false) (s : PassState) :
    ∃ notices, loadRow f s row = { s with
      notices := notices
      placements := s.placements.put row.job ⟨last, f.rowAssignment row⟩
      timeline := s.timeline.occupy row.start last (f.rowOrdinals row)
      ledger := (s.claimStanding job (f.rowOrdinals row).card row.start last).ledger
      claims := (s.claimStanding job (f.rowOrdinals row).card row.start last).claims
      reservations :=
        if job.reservation == .scheduled && !job.state.isActive then
          s.reservations.put row.job (f.rowAssignment row)
        else s.reservations } := by
  obtain ⟨notices, hrow⟩ := rowResources_eq s f row
  refine ⟨notices, ?_⟩
  rw [Frame.keepsAside] at haside
  simp only [loadRow, h, hrow, haside, Bool.false_eq_true, if_false, Frame.id_of_standing? h,
    Frame.rowAssignment, claimStanding]
  by_cases hquota : job.isWithoutQuotas = true
  · simp only [hquota, if_true]
    split <;> rfl
  · simp only [hquota]
    split <;> rfl

/-- What one row adds to the state. -/
structure Loads (f : Frame) (row : GanttRow) (s s' : PassState) : Prop where
  timeline : s'.timeline = match f.occupiedUntil? row with
    | some last => s.timeline.occupy row.start last (f.rowOrdinals row)
    | none => s.timeline
  placements : s'.placements = match f.standingPlacement? row with
    | some p => s.placements.put row.job p
    | none => s.placements
  reservations : s'.reservations = match f.reservedAssignment? row with
    | some a => s.reservations.put row.job a
    | none => s.reservations
  bestEffort : s'.bestEffort = s.bestEffort ++ (f.aside? row).toList
  victims : s'.victims = s.victims
  commitments : s'.commitments = s.commitments
  decisions : s'.decisions = s.decisions

theorem loads_loadRow (f : Frame) (s : PassState) (row : GanttRow) :
    Loads f row s (loadRow f s row) := by
  cases hstanding : f.standing? row with
  | none =>
      rw [loadRow_of_not_standing hstanding]
      constructor <;> simp [Frame.occupiedUntil?, Frame.standingPlacement?,
        Frame.reservedAssignment?, Frame.aside?, hstanding]
  | some e =>
      obtain ⟨job, last⟩ := e
      have hplacement : f.standingPlacement? row = some ⟨last, f.rowAssignment row⟩ := by
        rw [Frame.standingPlacement?, hstanding, Option.map_some]
      have hoccupied : f.occupiedUntil? row = if Frame.keepsAside job then none else some last := by
        rw [Frame.occupiedUntil?, hstanding, Option.bind_some]
      have hkept : f.aside? row =
          if Frame.keepsAside job then some (row.job, f.rowOrdinals row) else none := by
        rw [Frame.aside?, hstanding, Option.bind_some]
      have hreserved : f.reservedAssignment? row =
          if job.reservation == .scheduled && !job.state.isActive then some (f.rowAssignment row)
          else none := by
        rw [Frame.reservedAssignment?, hstanding, Option.bind_some]
      cases haside : Frame.keepsAside job with
      | true =>
          have hactive : job.state.isActive = true := (Bool.and_eq_true _ _ ▸ haside).2
          obtain ⟨notices, hload⟩ := loadRow_of_keepsAside hstanding haside s
          rw [hload]
          constructor <;> simp [hplacement, hoccupied, hkept, hreserved, haside, hactive]
      | false =>
          obtain ⟨notices, hload⟩ := loadRow_of_not_keepsAside hstanding haside s
          rw [hload]
          by_cases hflag : (job.reservation == .scheduled && !job.state.isActive) = true
          · rw [if_pos hflag] at hreserved ⊢
            constructor <;> simp [hplacement, hoccupied, hkept, hreserved, haside]
          · rw [if_neg hflag] at hreserved ⊢
            constructor <;> simp [hplacement, hoccupied, hkept, hreserved, haside]

end Rows

section Folds

variable (f) (rows : List GanttRow)

theorem timeline_foldl_close (windows : List (Int × Int × Nat)) (s : PassState) :
    windows.foldl close s =
      { s with
        timeline := s.timeline.occupyAll (windows.map fun w => ⟨w.1, w.2.1, .single w.2.2⟩) } := by
  induction windows generalizing s with
  | nil => rfl
  | cons w rest ih => exact ih (s.close w)

theorem timeline_foldl_loadRow (s : PassState) :
    (rows.foldl (loadRow f) s).timeline =
      s.timeline.occupyAll (rows.filterMap f.occupation?) := by
  induction rows generalizing s with
  | nil => rfl
  | cons row rest ih =>
      rw [List.foldl_cons, ih, (loads_loadRow f s row).timeline, List.filterMap_cons,
        Frame.occupation?]
      cases f.occupiedUntil? row <;> rfl

/-- All that is taken before the first task. -/
theorem timeline_load (s : PassState) :
    (s.load f).timeline =
      s.timeline.occupyAll ((f.closures.map fun w => ⟨w.1, w.2.1, .single w.2.2⟩) ++
        f.rows.filterMap f.occupation?) := by
  rw [load, timeline_foldl_loadRow, timeline_foldl_close, Timeline.occupyAll_append]

theorem placements_foldl_loadRow (s : PassState) :
    (rows.foldl (loadRow f) s).placements =
      s.placements.putSome GanttRow.job f.standingPlacement? rows := by
  induction rows generalizing s with
  | nil => rfl
  | cons row rest ih =>
      rw [List.foldl_cons, ih, (loads_loadRow f s row).placements, Dictionary.putSome_cons]
      cases f.standingPlacement? row <;> rfl

theorem reservations_foldl_loadRow (s : PassState) :
    (rows.foldl (loadRow f) s).reservations =
      s.reservations.putSome GanttRow.job f.reservedAssignment? rows := by
  induction rows generalizing s with
  | nil => rfl
  | cons row rest ih =>
      rw [List.foldl_cons, ih, (loads_loadRow f s row).reservations, Dictionary.putSome_cons]
      cases f.reservedAssignment? row <;> rfl

theorem bestEffort_foldl_loadRow (s : PassState) :
    (rows.foldl (loadRow f) s).bestEffort = s.bestEffort ++ rows.filterMap f.aside? := by
  induction rows generalizing s with
  | nil => simp
  | cons row rest ih =>
      rw [List.foldl_cons, ih, (loads_loadRow f s row).bestEffort, List.append_assoc]
      cases haside : f.aside? row <;> simp [haside]

theorem outcome_foldl_loadRow (s : PassState) :
    (rows.foldl (loadRow f) s).victims = s.victims ∧
      (rows.foldl (loadRow f) s).commitments = s.commitments ∧
      (rows.foldl (loadRow f) s).decisions = s.decisions := by
  induction rows generalizing s with
  | nil => exact ⟨rfl, rfl, rfl⟩
  | cons row rest ih =>
      have hrow := loads_loadRow f s row
      obtain ⟨hvictims, hcommitments, hdecisions⟩ := ih (loadRow f s row)
      exact ⟨hvictims.trans hrow.victims, hcommitments.trans hrow.commitments,
        hdecisions.trans hrow.decisions⟩

end Folds

/-- The state before the first task, told from the frame alone. -/
structure Loaded (f : Frame) (s : PassState) : Prop where
  wellFormed : s.timeline.WellFormed
  origin : s.timeline.origin = f.now
  horizon : s.timeline.horizon = f.horizon
  free : ∀ o t, s.timeline.Free o t ↔
    (f.now ≤ t ∧ t ≤ f.horizon ∧ o ∈ f.catalog.schedulable) ∧
      (∀ w ∈ f.closures, ¬ (w.1 ≤ t ∧ t ≤ w.2.1 ∧ o = w.2.2)) ∧
      ∀ row ∈ f.rows, ∀ last, f.occupiedUntil? row = some last →
        ¬ (row.start ≤ t ∧ t ≤ last ∧ o ∈ f.rowOrdinals row)
  placements : ∀ id p, s.placements.get? id = some p ↔
    ∃ row ∈ f.rows, row.job = id ∧ f.standingPlacement? row = some p
  reservations : ∀ id a, s.reservations.get? id = some a ↔
    ∃ row ∈ f.rows, row.job = id ∧ f.reservedAssignment? row = some a
  bestEffort : s.bestEffort = f.rows.filterMap f.aside?
  victims : s.victims = []
  commitments : s.commitments = []
  decisions : s.decisions = []

theorem noticeUnknownQueues_eq (f : Frame) (s : PassState) :
    ∃ notices, noticeUnknownQueues f s = { s with notices := notices } := by
  simp only [noticeUnknownQueues]
  generalize f.waiting.filter _ = jobs
  induction jobs generalizing s with
  | nil => exact ⟨s.notices, rfl⟩
  | cons job rest ih => exact ih (s.notify (.unknownQueue job.id job.queue))

theorem alike_noticeUnknownQueues (f : Frame) (s : PassState) :
    Alike s (noticeUnknownQueues f s) := by
  obtain ⟨notices, hnotices⟩ := noticeUnknownQueues_eq f s
  rw [hnotices]
  exact { Alike.refl s with }

theorem loaded_start (f : Frame) (m : Matcher) : Loaded f (start f m) := by
  have halike := alike_noticeUnknownQueues f ((initial f m).load f)
  have hinitial : (initial f m).timeline.WellFormed := Timeline.wellFormed_initial _ _ _
  have htimeline := halike.timeline.trans (timeline_load f (initial f m))
  have hclose := timeline_foldl_close f.closures (initial f m)
  have houtcome := outcome_foldl_loadRow f f.rows
    (f.closures.foldl close (initial f m))
  have hbest := bestEffort_foldl_loadRow f f.rows
    (f.closures.foldl close (initial f m))
  rw [hclose] at houtcome hbest
  constructor
  · rw [start, htimeline]
    exact Timeline.wellFormed_occupyAll hinitial _
  · rw [start, htimeline]
    exact Timeline.occupyAll_origin ..
  · rw [start, htimeline]
    exact Timeline.occupyAll_horizon ..
  · intro o t
    rw [start, htimeline, Timeline.free_occupyAll hinitial, initial, Timeline.free_initial,
      List.forall_mem_append, List.forall_mem_map]
    refine and_congr_right fun _ => and_congr (by simp only [OrdinalSet.mem_single]) ⟨?_, ?_⟩
    · intro h row hrow last hlast
      exact h _ (List.mem_filterMap.2
        ⟨row, hrow, by rw [Frame.occupation?, hlast, Option.map_some]⟩)
    · intro h c hc
      obtain ⟨row, hrow, hc⟩ := List.mem_filterMap.1 hc
      obtain ⟨last, hlast, rfl⟩ := Option.map_eq_some_iff.1 hc
      exact h row hrow last hlast
  · intro id p
    rw [start, halike.placements, load, placements_foldl_loadRow, hclose,
      Dictionary.get?_putSome f.rows_distinct]
    simp [initial]
  · intro id a
    rw [start, halike.reservations, load, reservations_foldl_loadRow, hclose,
      Dictionary.get?_putSome f.rows_distinct]
    simp [initial]
  · rw [start, halike.bestEffort, load, hclose, hbest]
    rfl
  · rw [start, halike.victims, load, hclose, houtcome.1]
    rfl
  · rw [start, halike.commitments, load, hclose, houtcome.2.1]
    rfl
  · rw [start, halike.decisions, load, hclose, houtcome.2.2]
    rfl

end PassState
end ClusterPlan
