import ClusterPlan.Proofs.Pass.Simulation

/-!
Two states that agree on all that placing a regular job or a reservation looks at. They may differ in
the best-effort jobs that are kept aside, in those marked to be killed, and in what is noted. Every
task but the one that shows the best-effort jobs keeps the agreement.
-/

namespace ClusterPlan

/-- The job that a decision is about, and whether the decision is that it fails. -/
def Decision.verdict (d : Decision) : Int × Bool := (d.job, d.outcome == .error)

namespace PassState

structure Agrees (s s' : PassState) : Prop where
  matcher : s'.matcher = s.matcher
  timeline : s'.timeline = s.timeline
  ledger : s'.ledger = s.ledger
  fits : s'.fits = s.fits
  reservations : s'.reservations = s.reservations
  claims : s'.claims = s.claims
  blocker : s'.blocker = s.blocker
  commitments : s'.commitments = s.commitments
  verdicts : s'.decisions.map Decision.verdict = s.decisions.map Decision.verdict

namespace Agrees

variable {f : Frame} {s s' s'' : PassState} {job : Job} {c : Candidate} {start : Int}
  {resources : OrdinalSet}

theorem refl (s : PassState) : Agrees s s := by
  constructor <;> rfl

theorem trans (h : Agrees s s') (h' : Agrees s' s'') : Agrees s s'' where
  matcher := h'.matcher.trans h.matcher
  timeline := h'.timeline.trans h.timeline
  ledger := h'.ledger.trans h.ledger
  fits := h'.fits.trans h.fits
  reservations := h'.reservations.trans h.reservations
  claims := h'.claims.trans h.claims
  blocker := h'.blocker.trans h.blocker
  commitments := h'.commitments.trans h.commitments
  verdicts := h'.verdicts.trans h.verdicts

theorem symm (h : Agrees s s') : Agrees s' s where
  matcher := h.matcher.symm
  timeline := h.timeline.symm
  ledger := h.ledger.symm
  fits := h.fits.symm
  reservations := h.reservations.symm
  claims := h.claims.symm
  blocker := h.blocker.symm
  commitments := h.commitments.symm
  verdicts := h.verdicts.symm

section Booking

/-- Whatever else is decided, both states decide that the job fails or that it does not. -/
theorem decide {outcome outcome' : Outcome} (h : Agrees s s')
    (hfails : (outcome' == .error) = (outcome == .error)) (state state' : JobState)
    (reservation reservation' : Reservation) (note note' : Note) :
    Agrees (s.decide job outcome state reservation note)
      (s'.decide job outcome' state' reservation' note') :=
  { h with
    verdicts := by simp only [PassState.decide, List.map_append, h.verdicts, List.map_cons,
      List.map_nil, Decision.verdict, hfails] }

theorem notify (h : Agrees s s') (n : Notice) : Agrees (s.notify n) (s'.notify n) := { h with }

theorem evict (h : Agrees s s') (resources : OrdinalSet) :
    Agrees (s.evict resources).1 (s'.evict resources).1 := { h with }

theorem attempt_eq (h : Agrees s s') : s'.attempt f job c start = s.attempt f job c start := by
  simp only [attempt, h.timeline, h.ledger]

theorem occupied (h : Agrees s s') (start last : Int) (resources : OrdinalSet)
    (placements placements' : Dictionary Int Placement) :
    Agrees
      { s with placements := placements, timeline := s.timeline.occupy start last resources }
      { s' with placements := placements', timeline := s'.timeline.occupy start last resources } :=
  { h with timeline := by simp only [h.timeline] }

theorem claimStanding (h : Agrees s s') (job : Job) (units : Nat) (first last : Int) :
    Agrees (s.claimStanding job units first last) (s'.claimStanding job units first last) := by
  cases hquota : job.isWithoutQuotas with
  | true => simpa only [PassState.claimStanding, hquota, if_true] using h
  | false =>
      simp only [PassState.claimStanding, hquota, Bool.false_eq_true, if_false]
      exact { h with
        ledger := by simp only [h.ledger]
        claims := by simp only [h.ledger, h.claims] }

theorem booked (h : Agrees s s') :
    Agrees (s.booked f job c start resources) (s'.booked f job c start resources) :=
  { h.claimStanding job resources.card start (f.heldOnTimeline start c.walltime) with
    timeline := by simp only [PassState.booked, h.timeline]
    commitments := by simp only [PassState.booked, h.commitments] }

/-- A job that is placed now does not fail, whoever has to be killed for it. -/
theorem launch (h : Agrees s s') :
    Agrees (s.launch job c resources) (s'.launch job c resources) := by
  simp only [PassState.launch]
  cases job.isBestEffort with
  | true => exact h.decide rfl ..
  | false =>
      simp only [Bool.false_eq_true, if_false]
      split <;> split <;> exact (h.evict resources).decide (by rfl) ..

/-- Nor does a reservation that starts, whoever is still on its resources. -/
theorem startReservation (h : Agrees s s') (a : Assignment) :
    Agrees (PassState.startReservation f s job a) (PassState.startReservation f s' job a) := by
  simp only [PassState.startReservation]
  split
  · split <;> split <;> exact (h.evict a.resources).decide (by rfl) ..
  · exact (h.notify _).decide rfl ..

theorem abandon (h : Agrees s s') (id : Int) : Agrees (s.abandon id) (s'.abandon id) :=
  { h with
    ledger := by simp only [PassState.abandon, h.claims, h.ledger]
    claims := by simp only [PassState.abandon, h.claims]
    reservations := by simp only [PassState.abandon, h.reservations] }

end Booking

section Loading

theorem rowResources (h : Agrees s s') (row : GanttRow) :
    Agrees (s.rowResources f row).1 (s'.rowResources f row).1 ∧
      (s'.rowResources f row).2 = (s.rowResources f row).2 := by
  simp only [PassState.rowResources]
  cases f.catalog.ofIds row.resources with
  | ok set => exact ⟨h, rfl⟩
  | error e => exact ⟨h.notify _, rfl⟩

theorem loadRow (h : Agrees s s') (row : GanttRow) :
    Agrees (PassState.loadRow f s row) (PassState.loadRow f s' row) := by
  simp only [PassState.loadRow]
  cases f.standing? row with
  | none => exact h
  | some e =>
      obtain ⟨job, last⟩ := e
      obtain ⟨hstate, hresources⟩ := h.rowResources (f := f) row
      simp only [hresources]
      cases job.isBestEffort && job.state.isActive with
      | true =>
          simp only [if_true]
          exact { hstate with }
      | false =>
          simp only [Bool.false_eq_true, if_false]
          have hcharged := (hstate.occupied row.start last (s.rowResources f row).2
            ((s.rowResources f row).1.placements.put job.id
              ⟨last, row.alternative, row.start, row.walltime, (s.rowResources f row).2⟩)
            ((s'.rowResources f row).1.placements.put job.id
              ⟨last, row.alternative, row.start, row.walltime, (s.rowResources f row).2⟩)).claimStanding
            job (s.rowResources f row).2.card row.start last
          split
          · exact { hcharged with reservations := by simp only [hcharged.reservations] }
          · exact hcharged

theorem of_noticeUnknownQueues (f : Frame) (s : PassState) :
    Agrees s (noticeUnknownQueues f s) := by
  obtain ⟨notices, hnotices⟩ := noticeUnknownQueues_eq f s
  rw [hnotices]
  exact { Agrees.refl s with }

end Loading

/-- No task but the one that shows the best-effort jobs tells apart what agrees. -/
theorem simulation (f : Frame) : Simulation f (fun _ => True) Agrees where
  answers _ h := by rw [h.matcher]
  timeline h := h.timeline
  fits h := h.fits
  blocker h := h.blocker
  reservation h _ := by rw [h.reservations]
  attempt h _ := h.attempt_eq
  asked _ h := { h with matcher := by simp only [h.matcher] }
  withBlocker _ h := { h with blocker := rfl }
  wish job candidates h := by
    obtain ⟨_, hwish⟩ := wishWakeup_eq f job candidates _
    obtain ⟨_, hwish'⟩ := wishWakeup_eq f job candidates _
    rw [hwish, hwish']
    exact { h with }
  notify n h := h.notify n
  remember shape room h := { h with fits := by simp only [remember, h.fits] }
  decide _ _ _ _ h _ := h.decide rfl ..
  booked _ _ _ h _ := h.booked
  launch _ _ h _ := h.launch
  start a h _ := h.startReservation a
  abandon h _ := h.abandon _

theorem run {tasks : List Task} (htasks : .showBestEffort ∉ tasks) (h : Agrees s s') :
    Agrees (tasks.foldl (perform f) s) (tasks.foldl (perform f) s') :=
  (simulation f).run htasks (fun _ _ _ _ => trivial) h

end Agrees

end PassState

end ClusterPlan
