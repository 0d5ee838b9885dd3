import ClusterPlan.Proofs.Pass.Launching
import ClusterPlan.Proofs.Pass.Placed
import ClusterPlan.Proofs.Pass.Resuming

/-!
The rows of a second frame. Each of them stood before or keeps a commitment of the first pass, and it
stands in the second frame unless what it keeps was only planned.
-/

namespace ClusterPlan

/-- Whether a commitment holds beyond the pass: it is for a reservation, or its job was launched. -/
def Report.settles (r : Report) (c : Commitment) : Bool :=
  c.job.isReservation || r.alters c.job.id

namespace PassState

variable {f : Frame} {m : Matcher} {s s' : PassState} {c : Commitment} {row : GanttRow} {job : Job}
  {id last : Int}

section Placed

/-- As long as no reservation has passed, placed is what was placed at first and what is
committed. -/
theorem has_run (hcurrent : f.IsCurrent) (tasks : List Task)
    (hs : s.reservations = (start f m).reservations)
    (h : s.placements.has id = true ↔
      (start f m).placements.has id = true ∨ ∃ c ∈ s.commitments, c.job.id = id) :
    (tasks.foldl (perform f) s).placements.has id = true ↔
      (start f m).placements.has id = true ∨
        ∃ c ∈ (tasks.foldl (perform f) s).commitments, c.job.id = id := by
  induction tasks generalizing s with
  | nil => exact h
  | cons task rest ih =>
      have hstep := perform_step f s task
      refine ih (hstep.reservations_eq hcurrent hs) ?_
      rcases hstep.cases_current hcurrent hs with ⟨c, hc⟩ | hkeeps
      · rw [hc.placements, Dictionary.has_put, h, hc.commitments]
        simp only [List.mem_append, List.mem_singleton, or_and_right, exists_or, exists_eq_left]
        rw [or_left_comm]
        exact or_congr_right or_comm
      · rw [hkeeps.placements, hkeeps.commitments, h]

theorem has_finished (hcurrent : f.IsCurrent) : (finished f m).placements.has id = true ↔
    (∃ row ∈ f.rows, row.job = id ∧ (f.standing? row).isSome = true) ∨
      ∃ c ∈ (finished f m).commitments, c.job.id = id := by
  rw [finished, has_run (m := m) hcurrent f.agenda rfl, has_start]
  rw [(loaded_start f m).commitments]
  simp

end Placed

section Committed

theorem Fate.committed {reserved : Option Assignment} {committed : List Commitment} {job' : Job}
    (h : Fate f job reserved committed job') (hc : c ∈ committed) :
    committed = [c] ∧ reserved = none := by
  cases h with
  | stands | waits | fails => cases hc
  | plans hnone | launches hnone | grants hnone =>
      rw [List.mem_singleton.1 hc]
      exact ⟨rfl, hnone⟩

variable (h : f.Tidy) (hcurrent : f.IsCurrent) (hc : c ∈ (finished f m).commitments)
include h hcurrent hc

theorem fate_of_committed :
    (start f m).reservations.get? c.job.id = none ∧
      ((finished f m).commitments.filter fun d => d.job.id == c.job.id) = [c] ∧
      Fate f c.job none [c] ((f.run m).report.altered c.job) := by
  have hfate := fate h hcurrent m (committed_of_task hc).1
  have hmem : c ∈ (finished f m).commitments.filter fun d => d.job.id == c.job.id :=
    List.mem_filter.2 ⟨hc, beq_self_eq_true _⟩
  obtain ⟨hone, hnone⟩ := hfate.committed hmem
  rw [hone, hnone] at hfate
  exact ⟨hnone, hone, hfate⟩

end Committed

/-- What becomes of a commitment when the pass is over. -/
inductive Outlook (f : Frame) (r : Report) (c : Commitment) : Prop where
  | launched : r.settles c = true → c.placement.assignment.start = f.now →
      (r.altered c.job).state = .toLaunch → Outlook f r c
  | granted : r.settles c = true → c.job.isReservation = true →
      f.now ≤ c.placement.assignment.start → (r.altered c.job).state = .waiting →
      (r.altered c.job).reservation = .scheduled → Outlook f r c
  | planned : r.settles c = false → c.job.reservation = .none → r.altered c.job = c.job →
      (c.placement.assignment.start = f.now → c.job.isBestEffort = false) → Outlook f r c

theorem outlook (h : f.Tidy) (hcurrent : f.IsCurrent) (hc : c ∈ (finished f m).commitments) :
    Outlook f (f.run m).report c := by
  have hwaits := (committed_of_task hc).1
  obtain ⟨_, _, hfate⟩ := fate_of_committed h hcurrent hc
  generalize haltered : (f.run m).report.altered c.job = job' at hfate
  cases hfate with
  | plans _ hflag _ hlater =>
      refine .planned ?_ hflag haltered hlater
      rw [Report.settles, Job.isReservation, hflag, bne_self_eq_false, Bool.false_or]
      by_contra halters
      apply not_plain_of_alters h hwaits (Bool.not_eq_false _ ▸ halters)
      rw [haltered]
      exact ⟨(h.waits c.job hwaits).1, hflag⟩
  | launches _ _ _ hstart hstate =>
      refine .launched ?_ hstart (haltered ▸ hstate)
      rw [Report.settles, Bool.or_eq_true]
      right
      by_contra halters
      rw [← haltered, Report.altered_of_not_alters (Bool.not_eq_true _ ▸ halters),
        (h.waits c.job hwaits).1] at hstate
      cases hstate
  | grants _ hflag _ hnow hstate hscheduled =>
      have hreservation : c.job.isReservation = true := by
        rw [Job.isReservation, bne_iff_ne]
        exact hflag
      refine .granted ?_ hreservation hnow (haltered ▸ hstate) (haltered ▸ hscheduled)
      rw [Report.settles, hreservation, Bool.true_or]

section Reported

/-- What a row says that keeps a commitment. -/
theorem kept_row (hc : c ∈ (finished f m).commitments)
    (hsame : row.samePlacement (c.row f.catalog) = true) :
    row.job = c.job.id ∧ row.start = c.placement.assignment.start ∧
      row.walltime = c.placement.assignment.walltime ∧
      f.rowOrdinals row = c.placement.assignment.resources := by
  obtain ⟨hjob, hstart, hwalltime, hordinals⟩ := rowOrdinals_of_samePlacement (f := f) hsame
  exact ⟨hjob, hstart, hwalltime, hordinals.trans (rowOrdinals_row hc)⟩

end Reported

end PassState

namespace Frame.Resumes

open PassState

variable {f g : Frame} {m : Matcher} {c : Commitment} {row : GanttRow} {job job' : Job}
  {id last : Int}

/-- The job of a row that stood stands for it as before, or it was launched from its reservation. -/
structure StandsOn (job job' : Job) : Prop where
  aside : keepsAside job' = keepsAside job
  quotas : job'.isWithoutQuotas = job.isWithoutQuotas
  begun : job' = job ∨ job'.state.isActive = true

/-- The job of a commitment stands for its row, for as long as it was committed. -/
structure Settled (f : Frame) (c : Commitment) (job' : Job) (last : Int) : Prop where
  aside : keepsAside job' = c.job.isBestEffort
  quotas : job'.isWithoutQuotas = c.job.isWithoutQuotas
  held : ∀ o ∈ c.placement.assignment.resources,
    last = f.heldUntil c.placement.assignment.start c.placement.assignment.walltime
  begun : f.now ≤ c.placement.assignment.start ∨ job'.state.isActive = true

section Rows

variable (h : f.Resumes (f.run m).report g) (hf : f.Tidy)
include h hf

theorem mem_rows_of_standing (hcurrent : f.IsCurrent) (hrow : row ∈ f.rows)
    (hstanding : f.standing? row = some (job, last)) : row ∈ g.rows := by
  refine (h.rows row).2 (leaves_of_placed hrow ?_ fun c hc => ?_)
  · exact (has_finished hcurrent).2 (Or.inl ⟨row, hrow, rfl, by rw [hstanding]; rfl⟩)
  · exact id_ne_of_standing hf.isParted hc hrow hstanding

/-- Every commitment is kept by a row of the second frame. -/
theorem exists_row_of_committed (hc : c ∈ (finished f m).commitments) :
    ∃ row ∈ g.rows, row.samePlacement (c.row f.catalog) = true := by
  obtain ⟨row, hleaves, hsame⟩ := exists_leaves_of_committed hf.isParted hc
  exact ⟨row, (h.rows row).2 hleaves, hsame⟩

theorem mem_rows_cases (hrow : row ∈ g.rows) :
    (row ∈ f.rows ∧ ∃ job last, f.standing? row = some (job, last)) ∨
      ∃ c ∈ (finished f m).commitments, row.samePlacement (c.row f.catalog) = true := by
  rcases leaves_cases hf.isParted ((h.rows row).1 hrow) with ⟨hmem, hstanding, _⟩ | hkeeps
  · obtain ⟨⟨job, last⟩, hstanding⟩ := Option.isSome_iff_exists.1 hstanding
    exact Or.inl ⟨hmem, job, last, hstanding⟩
  · exact Or.inr hkeeps

end Rows

section Standing

variable (h : f.Resumes (f.run m).report g) (hf : f.Repeatable)
include h hf

/-- What stood before stands as it did. -/
theorem standing?_of_standing (hrow : row ∈ f.rows)
    (hstanding : f.standing? row = some (job, last)) :
    ∃ job', g.standing? row = some (job', last) ∧ StandsOn job job' := by
  rcases Frame.standing?_cases hstanding with ⟨hactive, rfl⟩ | ⟨hnone, hreserved, rfl⟩
  · exact ⟨job, h.standing?_of_active hf.tidy hactive, rfl, rfl, Or.inl rfl⟩
  · obtain ⟨hwaits, hflag, hid⟩ := mem_of_reservedJob? hreserved
    have hstate := (hf.tidy.waits job hwaits).1
    have hassignment := reservedAssignment?_of_waiting hstanding hflag hstate
    have hget := ((loaded_start f m).reservations row.job _).2 ⟨row, hrow, rfl, hassignment⟩
    have hregular : job.isBestEffort = false :=
      hf.reserves job hwaits (by rw [Job.isReservation, hflag]; rfl)
    have hfate := fate hf.tidy hf.current m hwaits
    rw [hid, hget] at hfate
    generalize (finished f m).commitments.filter (fun c => c.job.id == row.job) = committed at hfate
    generalize haltered : (f.run m).report.altered job = job' at hfate
    cases hfate with
    | waits hsome | fails hsome | plans hsome | launches hsome | grants hsome => cases hsome
    | stands _ _ hkept =>
        rcases hkept with rfl | hlaunched
        · have hstands := h.standing?_of_granted hf.tidy hwaits hid.symm
            (by rw [haltered, hstate]) (by rw [haltered, hflag])
          rw [haltered] at hstands
          exact ⟨_, hstands, rfl, rfl, Or.inl rfl⟩
        · have hactive : job'.state.isActive = true := by rw [hlaunched]; rfl
          have hstands := h.standing?_of_launched hf.tidy hwaits hid.symm
            (haltered ▸ hactive)
          have hlast := hf.current row hrow _ hassignment
          have hheld := f.last_le_heldUntil row
          rw [haltered, max_eq_left (le_trans hlast hheld)] at hstands
          refine ⟨_, hstands, ?_, ?_, Or.inr hactive⟩
          · rw [keepsAside, keepsAside, ← haltered, Report.isBestEffort_altered, hregular]
            rfl
          · rw [← haltered, Report.isWithoutQuotas_altered]

/-- What was launched or granted stands in the second frame, for as long as it was committed. -/
theorem standing?_of_settled (hc : c ∈ (finished f m).commitments)
    (hsame : row.samePlacement (c.row f.catalog) = true)
    (hsettles : (f.run m).report.settles c = true) :
    ∃ job' last, g.standing? row = some (job', last) ∧ Settled f c job' last := by
  obtain ⟨hid, hstart, hwalltime, _⟩ := kept_row hc hsame
  have hwaits := (committed_of_task hc).1
  cases outlook hf.tidy hf.current hc with
  | planned hunsettled =>
      rw [hunsettled] at hsettles
      cases hsettles
  | launched _ hnow hstate =>
      have hactive : ((f.run m).report.altered c.job).state.isActive = true := by rw [hstate]; rfl
      refine ⟨_, _, h.standing?_of_launched hf.tidy hwaits hid hactive, ?_, ?_, fun o ho => ?_,
        Or.inr hactive⟩
      · rw [keepsAside, hactive, Bool.and_true, Report.isBestEffort_altered]
      · exact Report.isWithoutQuotas_altered ..
      · have hholds := (holds_start_of_committed hc ho).2.2
        rw [(committed_of_task hc).2.1, heldOnTimeline, hnow] at hholds
        rw [hstart, hwalltime, hnow]
        omega
  | granted _ hreservation hnow hstate hflag =>
      refine ⟨_, _, h.standing?_of_granted hf.tidy hwaits hid hstate hflag, ?_, ?_, fun _ _ => ?_,
        Or.inl hnow⟩
      · rw [keepsAside, hstate, hf.reserves c.job hwaits hreservation]
        exact Bool.and_false _
      · exact Report.isWithoutQuotas_altered ..
      · rw [hstart, hwalltime]

theorem standing?_of_unsettled (hc : c ∈ (finished f m).commitments)
    (hsame : row.samePlacement (c.row f.catalog) = true)
    (hsettles : (f.run m).report.settles c = false) : g.standing? row = none := by
  obtain ⟨hid, _⟩ := kept_row hc hsame
  have hwaits := (committed_of_task hc).1
  cases outlook hf.tidy hf.current hc with
  | launched hsettled | granted hsettled =>
      rw [hsettled] at hsettles
      cases hsettles
  | planned _ hflag haltered =>
      by_contra hsome
      obtain ⟨⟨job', last⟩, hstanding⟩ := Option.ne_none_iff_exists'.1 hsome
      rcases h.standing?_cases hf.tidy hstanding with ⟨hactive, _⟩ | ⟨j, hj, hjid, rfl, hstands⟩
      · obtain ⟨hmem, _, hjob⟩ := mem_of_activeJob? hactive
        exact hf.tidy.apart c.job hwaits job' hmem (hid.symm.trans hjob.symm)
      · rw [hf.tidy.hasTurns.eq_of_id_eq hj hwaits (hjid.symm.trans hid), haltered, hflag,
          (hf.tidy.waits c.job hwaits).1] at hstands
        rcases hstands with hactive | ⟨_, hscheduled⟩
        · cases hactive
        · cases hscheduled

/-- Whatever stands in the second frame stood before or was settled. -/
theorem stood_or_settled (hrow : row ∈ g.rows) (hstanding : g.standing? row = some (job', last)) :
    (∃ job, row ∈ f.rows ∧ f.standing? row = some (job, last) ∧ StandsOn job job') ∨
      ∃ c ∈ (finished f m).commitments, row.samePlacement (c.row f.catalog) = true ∧
        (f.run m).report.settles c = true ∧ Settled f c job' last := by
  rcases h.mem_rows_cases hf.tidy hrow with ⟨hmem, job, last₀, hbefore⟩ | ⟨c, hc, hsame⟩
  · obtain ⟨_, hagain, hon⟩ := h.standing?_of_standing hf hmem hbefore
    rw [hstanding] at hagain
    cases hagain
    exact Or.inl ⟨job, hmem, hbefore, hon⟩
  · cases hsettles : (f.run m).report.settles c with
    | false =>
        rw [h.standing?_of_unsettled hf hc hsame hsettles] at hstanding
        cases hstanding
    | true =>
        obtain ⟨_, _, hagain, hsettled⟩ := h.standing?_of_settled hf hc hsame hsettles
        rw [hstanding] at hagain
        cases hagain
        exact Or.inr ⟨c, hc, hsame, hsettles, hsettled⟩

end Standing

end Frame.Resumes

end ClusterPlan
