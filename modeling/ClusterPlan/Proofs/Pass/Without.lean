import ClusterPlan.Proofs.Pass.Simulation
import ClusterPlan.Proofs.Quota.Current

/-!
A state without what is there for one job. What the job holds may be placed and reserved, and it may be
charged for seconds that are over; nothing of that is seen by the tasks of other jobs, which come to the
same in both states.
-/

namespace ClusterPlan

namespace PassState

/-- The second state is the first one without what is there for the job of an id. The claims that are
left have other numbers. -/
structure Without (now id : Int) (number : Nat → Nat) (s s' : PassState) : Prop where
  matcher : s'.matcher = s.matcher
  timeline : s'.timeline = s.timeline
  ledger : Ledger.Matches now number s.ledger s'.ledger
  fits : s'.fits = s.fits
  placements : ∀ j, j ≠ id → s'.placements.get? j = s.placements.get? j
  reservations : ∀ j, j ≠ id → s'.reservations.get? j = s.reservations.get? j
  claims : ∀ j, j ≠ id → s.claims.get? j = (s'.claims.get? j).map number
  /-- The job has no number that another claim has. -/
  own : ∀ n, s.claims.get? id ≠ some (number n)
  bestEffort : s'.bestEffort = s.bestEffort
  regular : ∀ e ∈ s.bestEffort, e.1 ≠ id
  victims : s'.victims = s.victims
  blocker : s'.blocker = s.blocker
  commitments : s'.commitments = s.commitments
  decisions : s'.decisions = s.decisions.filter fun d => d.job != id

namespace Without

variable {f : Frame} {now id : Int} {number : Nat → Nat} {s s' : PassState} {job : Job}
  {row : GanttRow}

section Tasks

theorem decide (h : Without now id number s s') (hjob : job.id ≠ id) (outcome : Outcome)
    (state : JobState) (reservation : Reservation) (note : Note) :
    Without now id number (s.decide job outcome state reservation note)
      (s'.decide job outcome state reservation note) :=
  { h with
    decisions := by
      simp only [PassState.decide, h.decisions, h.placements _ hjob, List.filter_append]
      rw [List.filter_cons_of_pos (by simpa using hjob), List.filter_nil] }

/-- What is decided about the job itself is left out. -/
theorem decide_left (h : Without now id number s s') (hjob : job.id = id) (outcome : Outcome)
    (state : JobState) (reservation : Reservation) (note : Note) :
    Without now id number (s.decide job outcome state reservation note) s' :=
  { h with
    decisions := by
      simp only [PassState.decide, h.decisions, List.filter_append]
      rw [List.filter_cons_of_neg (by simpa using hjob), List.filter_nil, List.append_nil] }

theorem notify (h : Without now id number s s') (n : Notice) :
    Without now id number (s.notify n) (s'.notify n) := { h with }

theorem attempt_eq (h : Without now id number s s') {c : Candidate} {start : Int}
    (hstart : now ≤ start) : s'.attempt f job c start = s.attempt f job c start := by
  simp only [attempt, h.timeline, h.ledger.claimant_eq]
  have hrefusal : ∀ units last,
      s'.ledger.refusal? ⟨s.ledger.claimant job, units, start, last⟩ =
        s.ledger.refusal? ⟨s.ledger.claimant job, units, start, last⟩ := fun _ _ =>
    h.ledger.refusal?_eq hstart
  simp only [hrefusal]

theorem claimStanding (h : Without now id number s s') (hjob : job.id ≠ id) (units : Nat)
    (first last : Int) : Without now id number (s.claimStanding job units first last)
      (s'.claimStanding job units first last) := by
  cases hquota : job.isWithoutQuotas with
  | true => simpa only [PassState.claimStanding, hquota, if_true] using h
  | false =>
      simp only [PassState.claimStanding, hquota, Bool.false_eq_true, if_false, h.ledger.claimant_eq]
      refine { h with ledger := h.ledger.record _, claims := fun j hj => ?_, own := fun n => ?_ }
      · simp only [Ledger.record, Dictionary.get?_put]
        split
        · exact congrArg some (h.ledger.next 0)
        · exact h.claims j hj
      · simp only [Dictionary.get?_put, if_neg hjob]
        exact h.own n

theorem placed (h : Without now id number s s') (j : Int) (p : Placement) :
    Without now id number { s with placements := s.placements.put j p }
      { s' with placements := s'.placements.put j p } :=
  { h with placements := fun k hk => by simp only [Dictionary.get?_put, h.placements k hk] }

theorem occupied (h : Without now id number s s') (first last : Int) (resources : OrdinalSet) :
    Without now id number { s with timeline := s.timeline.occupy first last resources }
      { s' with timeline := s'.timeline.occupy first last resources } :=
  { h with timeline := by simp only [h.timeline] }

theorem booked (h : Without now id number s s') (hjob : job.id ≠ id) (c : Candidate) (start : Int)
    (resources : OrdinalSet) :
    Without now id number (s.booked f job c start resources)
      (s'.booked f job c start resources) := by
  have hclaimed := h.claimStanding hjob resources.card start (f.heldOnTimeline start c.walltime)
  have hplaced := h.placed job.id ⟨f.heldOnTimeline start c.walltime, c.id, start, c.walltime, resources⟩
  exact
    { hclaimed with
      timeline := by simp only [PassState.booked, h.timeline]
      placements := hplaced.placements
      commitments := by simp only [PassState.booked, h.commitments] }

theorem evict (h : Without now id number s s') (resources : OrdinalSet) :
    Without now id number (s.evict resources).1 (s'.evict resources).1 ∧
      (s'.evict resources).2 = (s.evict resources).2 :=
  ⟨{ h with victims := by simp only [PassState.evict, h.bestEffort, h.victims] },
    by simp only [PassState.evict, h.bestEffort]⟩

theorem launch (h : Without now id number s s') (hjob : job.id ≠ id) (c : Candidate)
    (resources : OrdinalSet) :
    Without now id number (s.launch job c resources) (s'.launch job c resources) := by
  obtain ⟨hevict, hblockers⟩ := h.evict resources
  simp only [PassState.launch]
  cases job.isBestEffort with
  | true => exact h.decide hjob ..
  | false =>
      simp only [Bool.false_eq_true, if_false, hblockers]
      split <;> exact hevict.decide hjob ..

theorem startReservation (h : Without now id number s s') (hjob : job.id ≠ id) (a : Assignment) :
    Without now id number (PassState.startReservation f s job a)
      (PassState.startReservation f s' job a) := by
  obtain ⟨hevict, hblockers⟩ := h.evict a.resources
  simp only [PassState.startReservation]
  split
  · simp only [hblockers]
    split <;> exact hevict.decide hjob ..
  · exact (h.notify _).decide hjob ..

theorem abandon (h : Without now id number s s') (hnumber : Function.Injective number) {j : Int}
    (hj : j ≠ id) : Without now id number (s.abandon j) (s'.abandon j) :=
  { h with
    ledger := by
      simp only [PassState.abandon, h.claims j hj]
      cases s'.claims.get? j with
      | none => exact h.ledger
      | some n => exact h.ledger.release hnumber n
    placements := fun k hk => by
      simp only [PassState.abandon, Dictionary.get?_erase, h.placements k hk]
    reservations := fun k hk => by
      simp only [PassState.abandon, Dictionary.get?_erase, h.reservations k hk]
    claims := fun k hk => by
      simp only [PassState.abandon, Dictionary.get?_erase]
      split
      · rfl
      · exact h.claims k hk
    own := fun n => by
      simp only [PassState.abandon, Dictionary.get?_erase, if_neg hj]
      exact h.own n }

/-- What the job itself gives back is not there in the second state. -/
theorem abandon_left (h : Without now id number s s') : Without now id number (s.abandon id) s' :=
  { h with
    ledger := by
      simp only [PassState.abandon]
      cases hown : s.claims.get? id with
      | none => exact h.ledger
      | some k => exact h.ledger.release_left fun n hn => h.own n (hn ▸ hown)
    placements := fun k hk => by
      simp only [PassState.abandon, Dictionary.get?_erase, if_neg hk.symm, h.placements k hk]
    reservations := fun k hk => by
      simp only [PassState.abandon, Dictionary.get?_erase, if_neg hk.symm, h.reservations k hk]
    claims := fun k hk => by
      simp only [PassState.abandon, Dictionary.get?_erase, if_neg hk.symm, h.claims k hk]
    own := fun n => by
      simp only [PassState.abandon, Dictionary.get?_erase, if_true]
      exact (Option.some_ne_none _).symm }

theorem simulation (f : Frame) (id : Int) (hnumber : Function.Injective number) :
    Simulation f (fun job => job.id ≠ id) (Without f.now id number) where
  answers _ h := by rw [h.matcher]
  timeline h := h.timeline
  fits h := h.fits
  blocker h := h.blocker
  reservation h hjob := h.reservations _ hjob
  attempt h hstart := h.attempt_eq hstart
  asked _ h := { h with matcher := by simp only [h.matcher] }
  withBlocker _ h := { h with blocker := rfl }
  wish job candidates h := by
    obtain ⟨_, hwish⟩ := wishWakeup_eq f job candidates _
    obtain ⟨_, hwish'⟩ := wishWakeup_eq f job candidates _
    rw [hwish, hwish']
    exact { h with }
  notify n h := h.notify n
  remember shape room h := { h with fits := by simp only [remember, h.fits] }
  decide _ _ _ _ h hjob := h.decide hjob ..
  booked c start resources h hjob := h.booked hjob c start resources
  launch c resources h hjob := h.launch hjob c resources
  start a h hjob := h.startReservation hjob a
  abandon h hjob := h.abandon hnumber hjob

/-- The job is none of the best-effort jobs that are shown. -/
theorem occupyBestEffort (h : Without now id number s s') :
    Without now id number s.occupyBestEffort s'.occupyBestEffort := by
  have hfold : ∀ entries : List (Int × OrdinalSet), (∀ e ∈ entries, e.1 ≠ id) → ∀ tl,
      entries.foldl (occupyPlaced s'.placements) tl = entries.foldl (occupyPlaced s.placements) tl := by
    intro entries hentries
    induction entries with
    | nil => exact fun _ => rfl
    | cons e rest ih =>
        obtain ⟨he, hrest⟩ := List.forall_mem_cons.1 hentries
        intro tl
        rw [List.foldl_cons, List.foldl_cons, ih hrest, occupyPlaced, occupyPlaced,
          h.placements e.1 he]
  refine { h with timeline := ?_ }
  rw [occupyBestEffort_timeline, occupyBestEffort_timeline, h.bestEffort, h.timeline]
  exact hfold s.bestEffort h.regular s.timeline

theorem run (hnumber : Function.Injective number) (tasks : List Task)
    (hjobs : ∀ task ∈ tasks, ∀ job, task.job? = some job → job.id ≠ id)
    (h : Without f.now id number s s') :
    Without f.now id number (tasks.foldl (perform f) s) (tasks.foldl (perform f) s') := by
  induction tasks generalizing s s' with
  | nil => exact h
  | cons task rest ih =>
      obtain ⟨hjob, hrest⟩ := List.forall_mem_cons.1 hjobs
      refine ih hrest ?_
      by_cases hshows : task = .showBestEffort
      · subst hshows
        exact h.occupyBestEffort
      · exact (simulation f id hnumber).perform h hshows hjob

end Tasks

section Loading

/-- A state in which there is nothing for any job. -/
theorem of_empty (now id : Int) (hclaims : s.claims = []) (hbest : s.bestEffort = [])
    (hdecisions : s.decisions = []) : Without now id (fun n => n) s s where
  matcher := rfl
  timeline := rfl
  ledger := .refl now s.ledger
  fits := rfl
  placements _ _ := rfl
  reservations _ _ := rfl
  claims j _ := Option.map_id'.symm
  own n := by rw [hclaims]; nofun
  bestEffort := rfl
  regular := by rw [hbest]; nofun
  victims := rfl
  blocker := rfl
  commitments := rfl
  decisions := by rw [hdecisions]; rfl

theorem rowResources (h : Without now id number s s') (row : GanttRow) :
    Without now id number (s.rowResources f row).1 (s'.rowResources f row).1 ∧
      (s'.rowResources f row).2 = (s.rowResources f row).2 := by
  simp only [PassState.rowResources]
  cases f.catalog.ofIds row.resources with
  | ok set => exact ⟨h, rfl⟩
  | error e => exact ⟨h.notify _, rfl⟩

theorem loadRow (h : Without now id number s s') (hrow : row.job ≠ id) :
    Without now id number (PassState.loadRow f s row) (PassState.loadRow f s' row) := by
  simp only [PassState.loadRow]
  cases hstanding : f.standing? row with
  | none => exact h
  | some e =>
      obtain ⟨job, last⟩ := e
      have hjob : job.id ≠ id := Frame.id_of_standing? hstanding ▸ hrow
      obtain ⟨hstate, hresources⟩ := h.rowResources (f := f) row
      simp only [hresources]
      have hplaced := hstate.placed job.id
        ⟨last, row.alternative, row.start, row.walltime, (s.rowResources f row).2⟩
      cases job.isBestEffort && job.state.isActive with
      | true =>
          simp only [if_true]
          exact { hplaced with
            bestEffort := by simp only [hstate.bestEffort]
            regular := fun e he => (List.mem_append.1 he).elim (hplaced.regular e) fun he =>
              List.mem_singleton.1 he ▸ hjob }
      | false =>
          simp only [Bool.false_eq_true, if_false]
          have hcharged := (hplaced.occupied row.start last (s.rowResources f row).2).claimStanding hjob
            (s.rowResources f row).2.card row.start last
          split
          · exact { hcharged with
              reservations := fun k hk => by
                simp only [Dictionary.get?_put, hcharged.reservations k hk] }
          · exact hcharged

/-- What the job itself claims is over. It takes up a number, and the others have the numbers past
it. -/
theorem claimStanding_left (h : Without now id (fun n => n) s s') (hjob : job.id = id) {last : Int}
    (hover : last < now) (hnumbers : ∀ e ∈ s.ledger.claims, e.1 < s.ledger.next)
    (hclaims : ∀ j n, s.claims.get? j = some n → n < s.ledger.next) (units : Nat) (first : Int) :
    ∃ number, Function.Injective number ∧
      Without now id number (s.claimStanding job units first last) s' := by
  cases hquota : job.isWithoutQuotas with
  | true =>
      refine ⟨fun n => n, fun _ _ heq => heq, ?_⟩
      simpa only [PassState.claimStanding, hquota, if_true] using h
  | false =>
      refine ⟨Ledger.past s.ledger.next, Ledger.past_injective _, ?_⟩
      simp only [PassState.claimStanding, hquota, Bool.false_eq_true, if_false]
      refine { h with
        ledger := h.ledger.record_left hover hnumbers
        claims := fun j hj => ?_
        own := fun n hn => ?_ }
      · simp only [Dictionary.get?_put, if_neg (hjob.trans_ne hj.symm)]
        have hj' := h.claims j hj
        cases hget : s'.claims.get? j with
        | none => rw [hj', hget]; rfl
        | some n =>
            rw [hget] at hj'
            rw [hj', Option.map_some, Option.map_some, Ledger.past, if_pos (hclaims j n hj')]
      · simp only [Dictionary.get?_put, if_pos hjob, Option.some.injEq, Ledger.record] at hn
        exact Ledger.past_ne _ n hn.symm

/-- The row of the job itself, if it is over. It takes nothing from the timeline, and what it claims no
window meets any more. -/
theorem loadRow_left {last : Int} (h : Without f.now row.job (fun n => n) s s')
    (hstanding : f.standing? row = some (job, last)) (hstate : job.state = .waiting)
    (hover : last < f.now) (horigin : s.timeline.origin = f.now)
    (hnumbers : ∀ e ∈ s.ledger.claims, e.1 < s.ledger.next)
    (hclaims : ∀ j n, s.claims.get? j = some n → n < s.ledger.next) :
    ∃ number, Function.Injective number ∧
      Without f.now row.job number (PassState.loadRow f s row) s' := by
  have hjob : job.id = row.job := Frame.id_of_standing? hstanding
  have haside : Frame.keepsAside job = false := by
    rw [Frame.keepsAside, hstate]
    exact Bool.and_false _
  obtain ⟨number, hinjective, hclaimed⟩ := h.claimStanding_left hjob hover hnumbers hclaims
    (f.rowOrdinals row).card row.start
  obtain ⟨notices, hload⟩ := loadRow_of_not_keepsAside hstanding haside s
  refine ⟨number, hinjective, ?_⟩
  rw [hload]
  exact
    { h with
      timeline := by rw [h.timeline, Timeline.occupy_of_lt (horigin.symm ▸ hover)]
      ledger := hclaimed.ledger
      placements := fun j hj => by
        simp only [Dictionary.get?_put, if_neg hj.symm, h.placements j hj]
      reservations := fun j hj => by
        split
        · simp only [Dictionary.get?_put, if_neg hj.symm, h.reservations j hj]
        · exact h.reservations j hj
      claims := hclaimed.claims
      own := hclaimed.own }

end Loading

end Without

end PassState

end ClusterPlan
