import Mathlib.Data.List.Permutation
import ClusterPlan.Proofs.Pass.Agenda

/-!
No two jobs on one resource at one second, as far as the timeline of a pass sees to it. A commitment
avoids what was committed before it, what regular jobs hold, what is reserved, and, if it is for a
best-effort job, what other best-effort jobs hold.
-/

namespace ClusterPlan

namespace Frame

variable {f : Frame} {start walltime t : Int}

/-- Whether a job from `start` for `walltime` seconds holds its resources at `t`. It does so to the
end of its security time. -/
def HeldAt (f : Frame) (start walltime t : Int) : Prop :=
  start ≤ t ∧ t ≤ start + walltime - 1 + f.security

/-- The same for a job that is active, which holds them at least up to now. -/
def ActivelyHeldAt (f : Frame) (start walltime t : Int) : Prop :=
  start ≤ t ∧ (t ≤ start + walltime - 1 + f.security ∨ t ≤ f.now)

/-- On no resource and at no second of the timeline do the assignment and the other holder meet. -/
def Avoids (f : Frame) (a : Assignment) (resources : OrdinalSet) (held : Int → Prop) : Prop :=
  ∀ o ∈ a.resources, o ∈ resources → ∀ t, f.now ≤ t → t ≤ f.horizon →
    f.HeldAt a.start a.walltime t → ¬ held t

/-- The assignment leaves the resources of the row alone while they are held for it. Nothing on the
timeline begins before now, so no second needs to be left out. -/
def Clears (f : Frame) (a : Assignment) (row : GanttRow) : Prop :=
  ∀ o ∈ a.resources, o ∈ f.rowOrdinals row → ∀ t ≤ f.horizon,
    f.HeldAt a.start a.walltime t → ¬ f.HeldAt row.start row.walltime t

/-- Sums that stop at the bounds of 64-bit time lose no second of the timeline. -/
theorem le_heldUntil (h : t ≤ start + walltime - 1 + f.security) (ht : t ≤ f.horizon) :
    t ≤ f.heldUntil start walltime := by
  have hsecurity : 0 ≤ f.security := by
    rw [security]
    omega
  have hlast : t ≤ Time.lastInstant := by
    rw [horizon] at ht
    omega
  simp only [heldUntil, Time.windowEnd, Time.later, Time.lastInstant, Time.latest, Time.earliest,
    Number.greatestInt, Number.leastInt] at *
  omega

theorem le_heldOnTimeline (h : f.HeldAt start walltime t) (ht : t ≤ f.horizon) :
    t ≤ f.heldOnTimeline start walltime := by
  have := le_heldUntil h.2 ht
  rw [heldOnTimeline]
  omega

end Frame

namespace PassState

variable {f : Frame} {m : Matcher} {c d : Commitment} {row : GanttRow} {job : Job} {o : Nat}
  {t : Int}

theorem holds_of_heldAt (hc : c ∈ (finished f m).commitments)
    (ho : o ∈ c.placement.assignment.resources)
    (h : f.HeldAt c.placement.assignment.start c.placement.assignment.walltime t)
    (ht : t ≤ f.horizon) : c.placement.Holds o t := by
  refine ⟨ho, h.1, ?_⟩
  rw [(committed_of_task hc).2.1]
  exact Frame.le_heldOnTimeline h ht

theorem books_finished (f : Frame) (m : Matcher) : (finished f m).Books :=
  books_run f f.agenda (start f m) (books_start f m)

/-- What is occupied by a row is committed to nobody. -/
theorem not_holds_of_occupied (hc : c ∈ (finished f m).commitments) (hrow : row ∈ f.rows)
    {last : Int} (hlast : f.occupiedUntil? row = some last) (ho : o ∈ f.rowOrdinals row)
    (hstart : row.start ≤ t) (ht : t ≤ last) : ¬ c.placement.Holds o t := by
  intro hholds
  have hfree := (committed_of_task hc).2.2 o t hholds
  exact (((loaded_start f m).free o t).1 hfree).2.2 row hrow last hlast ⟨hstart, ht, ho⟩

theorem occupiedUntil?_of_active (hactive : f.activeJob? row.job = some job)
    (hbest : job.isBestEffort = false) :
    f.occupiedUntil? row = some (max (f.heldUntil row.start row.walltime) f.now) := by
  rw [Frame.occupiedUntil?, Frame.standing?_of_active hactive, Option.bind_some, Frame.keepsAside,
    hbest, Bool.false_and]
  rfl

theorem occupiedUntil?_of_reserved (hactive : f.activeJob? row.job = none)
    (hreserved : f.reservedJob? row.job = some job) (hstate : job.state = .waiting) :
    f.occupiedUntil? row = some (f.heldUntil row.start row.walltime) := by
  rw [Frame.occupiedUntil?, Frame.standing?_of_reserved hactive hreserved, Option.bind_some,
    Frame.keepsAside, hstate, JobState.isActive, Bool.and_false]
  rfl

theorem le_max_heldUntil (h : f.ActivelyHeldAt row.start row.walltime t) (ht : t ≤ f.horizon) :
    t ≤ max (f.heldUntil row.start row.walltime) f.now := by
  rcases h.2 with hheld | hnow
  · have := Frame.le_heldUntil hheld ht
    omega
  · omega

theorem avoids_of_active_regular (hc : c ∈ (finished f m).commitments) (hrow : row ∈ f.rows)
    (hactive : f.activeJob? row.job = some job) (hbest : job.isBestEffort = false) :
    f.Avoids c.placement.assignment (f.rowOrdinals row)
      (f.ActivelyHeldAt row.start row.walltime) := by
  intro o ho hor t _ ht hheld hheld'
  exact not_holds_of_occupied hc hrow (occupiedUntil?_of_active hactive hbest) hor hheld'.1
    (le_max_heldUntil hheld' ht) (holds_of_heldAt hc ho hheld ht)

theorem clears_of_reserved (hc : c ∈ (finished f m).commitments) (hrow : row ∈ f.rows)
    (hactive : f.activeJob? row.job = none) (hreserved : f.reservedJob? row.job = some job)
    (hstate : job.state = .waiting) : f.Clears c.placement.assignment row := by
  intro o ho hor t ht hheld hheld'
  exact not_holds_of_occupied hc hrow (occupiedUntil?_of_reserved hactive hreserved hstate) hor
    hheld'.1 (Frame.le_heldUntil hheld'.2 ht) (holds_of_heldAt hc ho hheld ht)

theorem avoids_of_apart (hc : c ∈ (finished f m).commitments)
    (hd : d ∈ (finished f m).commitments)
    (hapart : ∀ o t, d.placement.Holds o t → ¬ c.placement.Holds o t) :
    f.Avoids c.placement.assignment d.placement.assignment.resources
      (f.HeldAt d.placement.assignment.start d.placement.assignment.walltime) := by
  intro o ho hod t _ ht hheld hheld'
  exact hapart o t (holds_of_heldAt hd hod hheld' ht) (holds_of_heldAt hc ho hheld ht)

theorem avoids_of_active_bestEffort {earlier later : List Commitment}
    (h : (finished f m).commitments = earlier ++ c :: later) (hc : c.job.isBestEffort = true)
    (hplain : c.job.isReservation = false) (hrow : row ∈ f.rows)
    (hactive : f.activeJob? row.job = some job) (hbest : job.isBestEffort = true)
    (hother : ∀ d ∈ earlier, d.job.id = row.job →
      d.job.isBestEffort = true ∧ d.job.isReservation = false) :
    f.Avoids c.placement.assignment (f.rowOrdinals row)
      (f.ActivelyHeldAt row.start row.walltime) := by
  have hmem : c ∈ (finished f m).commitments := by
    rw [h]
    simp
  obtain ⟨new, hnew, hall⟩ := commitments_eq f m
  have hold : c ∉ (beforeBestEffort f m).commitments := not_mem_beforeBestEffort hc hplain
  have hcnew : c ∈ new := by
    rw [hnew] at hmem
    exact (List.mem_append.1 hmem).resolve_left hold
  -- All that was committed before the best-effort jobs came was committed before `c`.
  have hearlier : ∀ d ∈ (beforeBestEffort f m).commitments, d ∈ earlier := by
    rw [hnew] at h
    exact mem_front_of_not_mem h hold
  have hids : ∀ d ∈ (beforeBestEffort f m).commitments, d.job.id ≠ row.job := by
    intro d hd hid
    obtain ⟨hdbest, hdplain⟩ := hother d (hearlier d hd) hid
    exact not_mem_beforeBestEffort hdbest hdplain hd
  intro o ho hor t _ ht hheld hheld'
  have hfree := (hall c hcnew).2.2 o t (holds_of_heldAt hmem ho hheld ht)
  exact not_free_of_bestEffort hrow hactive hbest hids hor hheld'.1 (le_max_heldUntil hheld' ht)
    hfree

end PassState

/-- What a commitment must not meet: what was committed before it, and the rows that stand. -/
structure Exclusive (f : Frame) (earlier : List Commitment) (c : Commitment) : Prop where
  committed : ∀ d ∈ earlier, f.Avoids c.placement.assignment d.placement.assignment.resources
    (f.HeldAt d.placement.assignment.start d.placement.assignment.walltime)
  active : ∀ row ∈ f.rows, ∀ job, f.activeJob? row.job = some job → job.isBestEffort = false →
    f.Avoids c.placement.assignment (f.rowOrdinals row) (f.ActivelyHeldAt row.start row.walltime)
  reserved : ∀ row ∈ f.rows, ∀ job, f.activeJob? row.job = none →
    f.reservedJob? row.job = some job → job.state = .waiting →
    f.Avoids c.placement.assignment (f.rowOrdinals row) (f.HeldAt row.start row.walltime)
  /-- Rows of active best-effort jobs are looked up by id when they come on the timeline, so one is
  passed over if a regular job or a reservation was placed under its id before. -/
  bestEffort : c.job.isBestEffort = true → c.job.isReservation = false →
    ∀ row ∈ f.rows, ∀ job, f.activeJob? row.job = some job → job.isBestEffort = true →
      (∀ d ∈ earlier, d.job.id = row.job →
        d.job.isBestEffort = true ∧ d.job.isReservation = false) →
      f.Avoids c.placement.assignment (f.rowOrdinals row) (f.ActivelyHeldAt row.start row.walltime)

theorem commitment_exclusive {f : Frame} {m : Matcher} {earlier later : List Commitment}
    {c : Commitment} (h : (f.run m).report.commitments = earlier ++ c :: later) :
    Exclusive f earlier c := by
  have hbooks := PassState.books_finished f m
  have hrun : (PassState.finished f m).commitments = earlier ++ c :: later := h
  have hc : c ∈ (PassState.finished f m).commitments := by
    rw [hrun]
    simp
  refine ⟨?_, ?_, ?_, ?_⟩
  · intro d hd
    have hapart := hbooks.apart
    rw [hrun, List.pairwise_append] at hapart
    have hdmem : d ∈ (PassState.finished f m).commitments := by
      rw [hrun]
      exact List.mem_append_left _ hd
    exact PassState.avoids_of_apart hc hdmem (hapart.2.2 d hd c List.mem_cons_self)
  · intro row hrow job hactive hbest
    exact PassState.avoids_of_active_regular hc hrow hactive hbest
  · intro row hrow job hactive hreserved hstate o ho hor t _ ht
    exact PassState.clears_of_reserved hc hrow hactive hreserved hstate o ho hor t ht
  · intro hbest hplain row hrow job hactive hjob hother
    exact PassState.avoids_of_active_bestEffort hrun hbest hplain hrow hactive hjob hother

section SharedId

/-- A waiting job of the user of these examples. -/
def exampleJob (id : Int) (types : List String) (count : Nat) : Job where
  id := id
  state := .waiting
  queue := ⟨"default"⟩
  user := ⟨"ann"⟩
  project := ⟨"demo"⟩
  types := types
  filter := none
  submitted := 0
  reservation := .none
  requestedStart := none
  alternatives := [⟨10 * id, 10, [⟨none, [⟨"resource_id", count⟩]⟩]⟩]
  message := ""

def exampleReservation : Job :=
  { exampleJob 7 [] 1 with reservation := .toSchedule, requestedStart := some 200 }

/-- Two resources, the second held by an active best-effort job of the given id. A reservation for
one resource and a best-effort job for both are waiting. -/
def twoResourceFrame (active : Int) : Frame where
  now := 100
  catalog := ⟨1, [⟨1, .alive, none, none, []⟩, ⟨2, .alive, none, none, []⟩], by decide⟩
  gantt := [⟨active, 10, 50, 1000, [2]⟩]
  active := [{ exampleJob active ["besteffort"] 1 with state := .running }]
  waiting := [exampleReservation, exampleJob 8 ["besteffort"] 2]
  wakeLead := 0
  config := { Config.default with securityTime := 0, policy := .backfill }
  order := JobOrder.oldestFirst
  remembersFits := true

theorem agenda_twoResourceFrame (active : Int) :
    (twoResourceFrame active).agenda =
      [.reserve exampleReservation, .openQueue, .showBestEffort, .openQueue,
        .consider (exampleJob 8 ["besteffort"] 2)] := by
  cbv

def reservedCommitment : Commitment where
  job := exampleReservation
  placement := ⟨209, ⟨70, 200, 10, .single 0⟩⟩

/-- With distinct ids the best-effort job waits for the active one. -/
theorem commitment_exclusive_twoResources :
    ((twoResourceFrame 9).run .empty).report.commitments =
        [reservedCommitment] ++
          ⟨exampleJob 8 ["besteffort"] 2, ⟨1059, ⟨80, 1050, 10, .ofIds [0, 1]⟩⟩⟩ :: [] ∧
      Exclusive (twoResourceFrame 9) [reservedCommitment]
        ⟨exampleJob 8 ["besteffort"] 2, ⟨1059, ⟨80, 1050, 10, .ofIds [0, 1]⟩⟩⟩ := by
  have hrun : ((twoResourceFrame 9).run .empty).report.commitments =
      [reservedCommitment] ++
        ⟨exampleJob 8 ["besteffort"] 2, ⟨1059, ⟨80, 1050, 10, .ofIds [0, 1]⟩⟩⟩ :: [] := by
    simp only [Frame.run, PassState.report, PassState.finished, agenda_twoResourceFrame]
    decide +kernel
  exact ⟨hrun, commitment_exclusive hrun⟩

/-- Under the id of the reservation the active job is passed over. -/
theorem bestEffort_overlap_of_shared_id :
    ¬ ∀ (f : Frame) (m : Matcher) (c : Commitment) (row : GanttRow) (job : Job),
      c ∈ (f.run m).report.commitments → c.job.isBestEffort = true →
      c.job.isReservation = false → row ∈ f.rows → f.activeJob? row.job = some job →
      job.isBestEffort = true →
      f.Avoids c.placement.assignment (f.rowOrdinals row)
        (f.ActivelyHeldAt row.start row.walltime) := by
  intro h
  have hmem : ⟨exampleJob 8 ["besteffort"] 2, ⟨109, ⟨80, 100, 10, .ofIds [0, 1]⟩⟩⟩ ∈
      ((twoResourceFrame 7).run .empty).report.commitments := by
    simp only [Frame.run, PassState.report, PassState.finished, agenda_twoResourceFrame]
    decide +kernel
  have havoids := h (twoResourceFrame 7) .empty _ ⟨7, 10, 50, 1000, [2]⟩
    { exampleJob 7 ["besteffort"] 1 with state := .running } hmem (by decide +kernel)
    (by decide +kernel) (by decide +kernel) (by decide +kernel) (by decide +kernel)
  refine havoids 1 (by decide +kernel) (by decide +kernel) 100 ?_ ?_ ?_ ?_ <;> cbv

end SharedId
end ClusterPlan
