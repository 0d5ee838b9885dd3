import Mathlib.Data.List.Perm.Lattice
import ClusterPlan.Proofs.Pass.Repeating

/-!
What a second pass at the same second reports. It writes no row and drops none, and its ledger misses
nothing but the claims of the best-effort jobs that the first pass launched.
-/

namespace ClusterPlan

namespace Frame

variable {f : Frame} {row : GanttRow}

/-- A row is charged for if it stands for a job with quotas and is not kept aside. -/
theorem isSome_recorded? : (f.recorded? row).isSome = true ↔
    ∃ job last, f.standing? row = some (job, last) ∧ keepsAside job = false ∧
      job.isWithoutQuotas = false := by
  cases hstanding : f.standing? row with
  | none => simp [recorded?_eq_none hstanding]
  | some e =>
      obtain ⟨job, last⟩ := e
      cases haside : keepsAside job <;> cases hquotas : job.isWithoutQuotas <;>
        simp [recorded?, isRecorded, aside?, rowClaim?, claim?, hstanding, haside, hquotas]

end Frame

namespace PassState

variable {f : Frame} {m : Matcher} {c : Commitment}

theorem isSome_commitmentClaim? : (f.commitmentClaim? c).isSome = !c.job.isWithoutQuotas := by
  cases hquotas : c.job.isWithoutQuotas <;> simp [Frame.commitmentClaim?, Frame.claim?, hquotas]

/-- As long as no reservation has passed, the ledger holds a claim for each row charged for and for
each commitment with quotas. -/
theorem claimCount_eq (hcurrent : f.IsCurrent) : (f.run m).report.claimCount =
    (f.rows.countP fun row => (f.recorded? row).isSome) +
      (finished f m).commitments.countP fun c => !c.job.isWithoutQuotas := by
  obtain ⟨released, booked, hbalanced⟩ : ∃ released booked,
      Balanced f (start f m) (finished f m) released booked :=
    balanced_front m (List.append_nil f.agenda).symm
  have hreleased : released = [] := by
    rw [List.eq_nil_iff_forall_not_mem]
    intro n hn
    obtain ⟨row, hrow, hgivesUp, _⟩ := hbalanced.passed n hn
    rw [Frame.givesUp, Bool.and_eq_true, Option.any_eq_true] at hgivesUp
    obtain ⟨⟨a, ha, hpassed⟩, _⟩ := hgivesUp
    exact absurd (hcurrent row hrow a ha) (not_le.2 (of_decide_eq_true hpassed))
  have hbooked := congrArg List.length hbalanced.commitments
  have hclaims := congrArg List.length hbalanced.claims
  subst hreleased
  rw [(opened_start f m).claims] at hclaims
  simp only [List.length_map, List.length_filterMap_eq_countP, isSome_commitmentClaim?] at hbooked
  simp only [List.not_mem_nil, not_false_eq_true, decide_true, List.filter_true, List.length_append,
    List.length_map, List.length_zipIdx, List.length_filterMap_eq_countP, hbooked] at hclaims
  exact hclaims

end PassState

namespace Frame.Resumes

open PassState

variable {f g : Frame} {m m' : Matcher} {c : Commitment} {row : GanttRow}

section Rows

variable (h : f.Resumes (f.run m).report g) (hf : f.Repeatable)
include h hf

/-- Whether the second frame charges for a commitment of the first pass. -/
theorem isSome_recorded?_of_kept (hc : c ∈ (finished f m).commitments)
    (hsame : row.samePlacement (c.row f.catalog) = true) :
    (g.recorded? row).isSome =
      ((f.run m).report.settles c && !c.job.isBestEffort && !c.job.isWithoutQuotas) := by
  rw [Bool.eq_iff_iff, isSome_recorded?]
  simp only [Bool.and_eq_true, Bool.not_eq_true']
  cases hsettles : (f.run m).report.settles c with
  | false =>
      rw [h.standing?_of_unsettled hf hc hsame hsettles]
      simp
  | true =>
      obtain ⟨job', last, hstanding, hsettled⟩ := h.standing?_of_settled hf hc hsame hsettles
      rw [hstanding, ← hsettled.aside, ← hsettled.quotas]
      simp

theorem isSome_recorded?_of_standing (hrow : row ∈ f.rows) {job : Job} {last : Int}
    (hstanding : f.standing? row = some (job, last)) :
    (g.recorded? row).isSome = (f.recorded? row).isSome := by
  obtain ⟨job', hagain, hon⟩ := h.standing?_of_standing hf hrow hstanding
  rw [Bool.eq_iff_iff, isSome_recorded?, isSome_recorded?, hstanding, hagain]
  simp [hon.aside, hon.quotas]

/-- The rows charged for in the second frame: those charged for before, and what was launched or
granted, best-effort jobs apart. -/
theorem countP_recorded? :
    (g.rows.countP fun row => (g.recorded? row).isSome) =
      (f.rows.countP fun row => (f.recorded? row).isSome) +
        (finished f m).commitments.countP fun c =>
          (f.run m).report.settles c && !c.job.isBestEffort && !c.job.isWithoutQuotas := by
  have hnodup : ∀ f : Frame, ((f.rows.filter fun row => (f.recorded? row).isSome).map
      GanttRow.job).Nodup := fun f =>
    (List.pairwise_map.2 f.rows_distinct).sublist (List.filter_sublist.map _)
  have hperm : List.Perm
      ((g.rows.filter fun row => (g.recorded? row).isSome).map GanttRow.job)
      ((f.rows.filter fun row => (f.recorded? row).isSome).map GanttRow.job ++
        ((finished f m).commitments.filter fun c => (f.run m).report.settles c &&
          !c.job.isBestEffort && !c.job.isWithoutQuotas).map fun c => c.job.id) := by
    refine (List.perm_ext_iff_of_nodup (hnodup g) ?_).2 fun id => ?_
    · refine List.nodup_append.2 ⟨hnodup f, ?_, ?_⟩
      · exact (nodup_ids_commitments hf.tidy.hasTurns m).sublist (List.filter_sublist.map _)
      · intro id hid id' hid' heq
        obtain ⟨row, hrow, rfl⟩ := List.mem_map.1 hid
        obtain ⟨c, hc, rfl⟩ := List.mem_map.1 hid'
        obtain ⟨hrow, hrecorded⟩ := List.mem_filter.1 hrow
        obtain ⟨job, last, hstanding, _⟩ := isSome_recorded?.1 hrecorded
        exact id_ne_of_standing hf.tidy.isParted (List.mem_filter.1 hc).1 hrow hstanding heq.symm
    · simp only [List.mem_append, List.mem_map, List.mem_filter]
      constructor
      · rintro ⟨row, ⟨hrow, hrecorded⟩, rfl⟩
        rcases h.mem_rows_cases hf.tidy hrow with ⟨hmem, job, last, hstanding⟩ | ⟨c, hc, hsame⟩
        · rw [h.isSome_recorded?_of_standing hf hmem hstanding] at hrecorded
          exact Or.inl ⟨row, ⟨hmem, hrecorded⟩, rfl⟩
        · rw [h.isSome_recorded?_of_kept hf hc hsame] at hrecorded
          exact Or.inr ⟨c, ⟨hc, hrecorded⟩, (kept_row hc hsame).1.symm⟩
      · rintro (⟨row, ⟨hrow, hrecorded⟩, rfl⟩ | ⟨c, ⟨hc, hcharged⟩, rfl⟩)
        · obtain ⟨job, last, hstanding, _⟩ := isSome_recorded?.1 hrecorded
          rw [← h.isSome_recorded?_of_standing hf hrow hstanding] at hrecorded
          exact ⟨row, ⟨h.mem_rows_of_standing hf.tidy hf.current hrow hstanding, hrecorded⟩, rfl⟩
        · obtain ⟨row, hrow, hsame⟩ := h.exists_row_of_committed hf.tidy hc
          rw [← h.isSome_recorded?_of_kept hf hc hsame] at hcharged
          exact ⟨row, ⟨hrow, hcharged⟩, (kept_row hc hsame).1⟩
  have hlength := hperm.length_eq
  rwa [List.length_append, List.length_map, List.length_map, List.length_map,
    ← List.countP_eq_length_filter, ← List.countP_eq_length_filter,
    ← List.countP_eq_length_filter] at hlength

end Rows

section Reports

variable (h : f.Resumes (f.run m).report g) (hf : f.Repeatable) (hready : m.Ready f.catalog)
  (hready' : m'.Ready f.catalog) (horder : f.order.IsPreorder)
include h hf hready hready' horder

theorem newRows_again : (g.run m').report.newRows = [] := by
  rw [List.eq_nil_iff_forall_not_mem]
  intro row hrow
  obtain ⟨c, hc, rfl, hnone⟩ := mem_newRows.1 hrow
  rw [h.commitments_again hf hready hready' horder] at hc
  obtain ⟨hcommitted, _⟩ := List.mem_filter.1 hc
  obtain ⟨old, hold, hsame⟩ := h.exists_row_of_committed hf.tidy hcommitted
  have hdiffers := hnone old hold (kept_row hcommitted hsame).1
  rw [h.catalog, hsame] at hdiffers
  cases hdiffers

theorem dropped_again : (g.run m').report.dropped = [] := by
  rw [List.eq_nil_iff_forall_not_mem]
  intro id hid
  obtain ⟨row, hrow, rfl, hnone⟩ := mem_dropped.1 hid
  have hhas : (finished g m').placements.has row.job = true := by
    rw [has_finished (h.isCurrent hf hready)]
    rcases h.mem_rows_cases hf.tidy hrow with ⟨hmem, job, last, hstanding⟩ | ⟨c, hc, hsame⟩
    · obtain ⟨job', hagain, _⟩ := h.standing?_of_standing hf hmem hstanding
      exact Or.inl ⟨row, hrow, rfl, by rw [hagain]; rfl⟩
    · cases hsettles : (f.run m).report.settles c with
      | true =>
          obtain ⟨job', last, hagain, _⟩ := h.standing?_of_settled hf hc hsame hsettles
          exact Or.inl ⟨row, hrow, rfl, by rw [hagain]; rfl⟩
      | false =>
          refine Or.inr ⟨c, ?_, (kept_row hc hsame).1.symm⟩
          rw [h.commitments_again hf hready hready' horder]
          exact List.mem_filter.2 ⟨hc, by rw [hsettles]; rfl⟩
  rw [hnone] at hhas
  cases hhas

omit h hready hready' horder in
/-- A best-effort job is placed at the present second if and only if it is launched. -/
theorem settles_of_bestEffort {c : Commitment} (hc : c ∈ (finished f m).commitments) :
    (c.job.isBestEffort && c.placement.assignment.start == f.now) =
      ((f.run m).report.settles c && c.job.isBestEffort) := by
  cases outlook hf.tidy hf.current hc with
  | launched hsettles hstart =>
      rw [hsettles, hstart, beq_self_eq_true, Bool.and_true, Bool.true_and]
  | granted _ hreservation =>
      rw [hf.reserves c.job (committed_of_task hc).1 hreservation, Bool.false_and, Bool.and_false]
  | planned hunsettled _ _ hlater =>
      rw [hunsettled, Bool.false_and, Bool.and_eq_false_iff, beq_eq_false_iff_ne]
      cases hbest : c.job.isBestEffort with
      | false => exact Or.inl rfl
      | true =>
          refine Or.inr fun hstart => ?_
          rw [hlater hstart] at hbest
          cases hbest

/-- The second pass misses the claims of the best-effort jobs that the first one launched. -/
theorem claimCount_again :
    (g.run m').report.claimCount + (finished f m).commitments.countP (fun c =>
        c.job.isBestEffort && c.placement.assignment.start == f.now && !c.job.isWithoutQuotas) =
      (f.run m).report.claimCount := by
  have hlaunched : ((finished f m).commitments.countP fun c =>
      c.job.isBestEffort && c.placement.assignment.start == f.now && !c.job.isWithoutQuotas) =
      (finished f m).commitments.countP fun c =>
        (f.run m).report.settles c && c.job.isBestEffort && !c.job.isWithoutQuotas :=
    List.countP_congr fun c hc => by rw [settles_of_bestEffort hf hc]
  -- The commitments with quotas are those not settled, those for best-effort jobs, and the others.
  have hsettled := List.countP_eq_countP_filter_add (finished f m).commitments
    (fun c => !c.job.isWithoutQuotas) fun c => (f.run m).report.settles c
  have hkinds := List.countP_eq_countP_filter_add
    ((finished f m).commitments.filter fun c => (f.run m).report.settles c)
    (fun c => !c.job.isWithoutQuotas) fun c => c.job.isBestEffort
  rw [countP_filter_filter, countP_filter_filter] at hkinds
  rw [claimCount_eq hf.current, claimCount_eq (h.isCurrent hf hready), h.countP_recorded? hf,
    h.commitments_again hf hready hready' horder, hlaunched]
  omega

end Reports

end Frame.Resumes

end ClusterPlan
