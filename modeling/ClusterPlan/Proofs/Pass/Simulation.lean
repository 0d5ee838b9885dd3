import ClusterPlan.Proofs.Pass.Commitments

/-!
Two passes side by side. What tasks do is made of a few things: they look at the state, they book, they
launch, they decide. A relation between states that stands all of these stands every task but the one
that shows the best-effort jobs.
-/

namespace ClusterPlan

namespace PassState

/-- A relation between states that the tasks of some jobs cannot break. Related states look the same to
them, and what they do to both leaves the states related. -/
structure Simulation (f : Frame) (about : Job → Prop) (R : PassState → PassState → Prop) : Prop where
  answers {s s' : PassState} (job : Job) : R s s' →
    (s'.matcher.forJob f.catalog job).2 = (s.matcher.forJob f.catalog job).2
  timeline {s s' : PassState} : R s s' → s'.timeline = s.timeline
  fits {s s' : PassState} : R s s' → s'.fits = s.fits
  blocker {s s' : PassState} : R s s' → s'.blocker = s.blocker
  reservation {s s' : PassState} {job : Job} : R s s' → about job →
    s'.reservations.get? job.id = s.reservations.get? job.id
  attempt {s s' : PassState} {job : Job} {c : Candidate} {start : Int} : R s s' → f.now ≤ start →
    s'.attempt f job c start = s.attempt f job c start
  asked {s s' : PassState} (job : Job) : R s s' →
    R { s with matcher := (s.matcher.forJob f.catalog job).1 }
      { s' with matcher := (s'.matcher.forJob f.catalog job).1 }
  withBlocker {s s' : PassState} (blocker : Option Int) : R s s' →
    R { s with blocker := blocker } { s' with blocker := blocker }
  wish {s s' : PassState} (job : Job) (candidates : List (Alternative × Candidate)) : R s s' →
    R (wishWakeup f job candidates s) (wishWakeup f job candidates s')
  notify {s s' : PassState} (n : Notice) : R s s' → R (s.notify n) (s'.notify n)
  remember {s s' : PassState} (shape : Shape) (room : FirstRoom) : R s s' →
    R (s.remember shape room) (s'.remember shape room)
  decide {s s' : PassState} {job : Job} (outcome : Outcome) (state : JobState)
    (reservation : Reservation) (note : Note) : R s s' → about job →
    R (s.decide job outcome state reservation note) (s'.decide job outcome state reservation note)
  booked {s s' : PassState} {job : Job} (c : Candidate) (start : Int) (resources : OrdinalSet) :
    R s s' → about job →
    R (s.booked f job c start resources) (s'.booked f job c start resources)
  launch {s s' : PassState} {job : Job} (c : Candidate) (resources : OrdinalSet) :
    R s s' → about job → R (s.launch job c resources) (s'.launch job c resources)
  start {s s' : PassState} {job : Job} (a : Assignment) : R s s' → about job →
    R (startReservation f s job a) (startReservation f s' job a)
  abandon {s s' : PassState} {job : Job} : R s s' → about job →
    R (s.abandon job.id) (s'.abandon job.id)

/-- A wish changes nothing but what is wished for. -/
theorem wishWakeup_eq (f : Frame) (job : Job) (candidates : List (Alternative × Candidate))
    (s : PassState) : ∃ wanted, wishWakeup f job candidates s = { s with wanted := wanted } := by
  simp only [wishWakeup]
  split
  · exact ⟨_, rfl⟩
  · exact ⟨s.wanted, rfl⟩

theorem searchStarts_congr {attemptAt attemptAt' : Int → Attempt} {ts : List Int}
    (h : ∀ t ∈ ts, attemptAt' t = attemptAt t) :
    searchStarts attemptAt' ts = searchStarts attemptAt ts := by
  induction ts with
  | nil => rfl
  | cons t rest ih =>
      obtain ⟨ht, hrest⟩ := List.forall_mem_cons.1 h
      simp only [searchStarts, ht, ih hrest]

namespace Simulation

variable {f : Frame} {about : Job → Prop} {R : PassState → PassState → Prop} {s s' : PassState}
  {job : Job} (h : Simulation f about R)
include h

section Reservations

theorem placeReserved {start : Int} (hnow : f.now ≤ start) (results : List (Except Error Candidate))
    (obstacle : Obstacle) (hs : R s s') (hjob : about job) :
    R (PassState.placeReserved f job start results obstacle s)
      (PassState.placeReserved f job start results obstacle s') := by
  induction results generalizing obstacle with
  | nil => exact h.decide _ _ _ _ hs hjob
  | cons result rest ih =>
      cases result with
      | error e => exact ih _
      | ok c =>
          have hsame : s'.attempt f job c start = s.attempt f job c start := h.attempt hs hnow
          cases hattempt : s.attempt f job c start with
          | found resources =>
              have hattempt' := hsame.trans hattempt
              simp only [PassState.placeReserved, hattempt, hattempt', commit_of_attempt hattempt,
                commit_of_attempt hattempt']
              exact h.decide _ _ _ _ (h.booked c start resources hs hjob) hjob
          | noRoom | overQuota =>
              simp only [PassState.placeReserved, hsame, hattempt]
              exact ih _

theorem placeReservation (hs : R s s') (hjob : about job) :
    R (PassState.placeReservation f s job) (PassState.placeReservation f s' job) := by
  simp only [PassState.placeReservation]
  cases job.requestedStart with
  | none => exact h.decide _ _ _ _ hs hjob
  | some start =>
      by_cases hpassed : start < f.now
      · simp only [hpassed, if_true]
        exact h.decide _ _ _ _ hs hjob
      · simp only [hpassed, if_false, h.answers job hs]
        exact h.placeReserved (not_lt.1 hpassed) _ _ (h.asked job hs) hjob

theorem reviewReservation (hs : R s s') (hjob : about job) :
    R (PassState.reviewReservation f s job) (PassState.reviewReservation f s' job) := by
  simp only [PassState.reviewReservation, h.reservation hs hjob]
  cases s.reservations.get? job.id with
  | none => exact h.placeReservation (h.notify _ hs) hjob
  | some a =>
      by_cases hahead : f.now < a.start
      · simp only [hahead, if_true]
        exact hs
      · by_cases hexpired : a.last < f.now
        · simp only [hahead, hexpired, if_true, if_false]
          exact h.decide _ _ _ _ (h.abandon hs hjob) hjob
        · simp only [hahead, hexpired, if_false]
          exact h.start a hs hjob

end Reservations

section Queues

theorem hasNoRoomNow_eq (hs : R s s') (shape : Shape) :
    s'.hasNoRoomNow f shape = s.hasNoRoomNow f shape := by
  simp only [hasNoRoomNow, remembered?, h.fits hs]

theorem placeNow (candidates : List (Alternative × Candidate)) (obstacle : Obstacle) (hs : R s s')
    (hjob : about job) :
    R (PassState.placeNow f job candidates obstacle s).1
        (PassState.placeNow f job candidates obstacle s').1 ∧
      (PassState.placeNow f job candidates obstacle s').2 =
        (PassState.placeNow f job candidates obstacle s).2 := by
  induction candidates generalizing obstacle s s' with
  | nil => exact ⟨h.decide _ _ _ _ hs hjob, rfl⟩
  | cons e rest ih =>
      obtain ⟨a, c⟩ := e
      simp only [PassState.placeNow, h.hasNoRoomNow_eq hs]
      by_cases hfull : s.hasNoRoomNow f (a.shape job.filter) = true
      · simp only [hfull, if_true]
        exact ih _ hs
      · simp only [hfull]
        have hsame : s'.attempt f job c f.now = s.attempt f job c f.now := h.attempt hs (le_refl f.now)
        cases hattempt : s.attempt f job c f.now with
        | found resources =>
            have hattempt' := hsame.trans hattempt
            simp only [hattempt', commit_of_attempt hattempt, commit_of_attempt hattempt']
            exact ⟨h.launch c resources (h.booked c f.now resources hs hjob) hjob, rfl⟩
        | noRoom =>
            simp only [hsame, hattempt]
            exact ih _ (h.remember _ _ hs)
        | overQuota d =>
            simp only [hsame, hattempt]
            exact ih _ hs

theorem earliestFit (job : Job) (a : Alternative) (c : Candidate) (hs : R s s') :
    R (s.earliestFit f job a c).1 (s'.earliestFit f job a c).1 ∧
      (s'.earliestFit f job a c).2 = (s.earliestFit f job a c).2 := by
  have hstarts : s'.starts f (a.shape job.filter) c = s.starts f (a.shape job.filter) c := by
    simp only [starts, remembered?, h.fits hs, h.timeline hs]
  have hsearch : searchStarts (s'.attempt f job c) (s'.starts f (a.shape job.filter) c) =
      searchStarts (s.attempt f job c) (s.starts f (a.shape job.filter) c) := by
    rw [hstarts]
    exact searchStarts_congr fun t ht => h.attempt hs (now_le_of_mem_starts ht)
  simp only [PassState.earliestFit, hsearch, and_true]
  exact h.remember _ _ hs

theorem bestProposal (job : Job) (candidates : List (Alternative × Candidate))
    (best : Option Proposal) (hit : Option Dimension) (hs : R s s') :
    R (PassState.bestProposal f job candidates best hit s).1
        (PassState.bestProposal f job candidates best hit s').1 ∧
      (PassState.bestProposal f job candidates best hit s').2 =
        (PassState.bestProposal f job candidates best hit s).2 := by
  induction candidates generalizing best hit s s' with
  | nil => exact ⟨hs, rfl⟩
  | cons e rest ih =>
      obtain ⟨a, c⟩ := e
      obtain ⟨hstate, hfit⟩ := h.earliestFit job a c hs
      generalize htook : s.earliestFit f job a c = found at hstate hfit
      generalize htook' : s'.earliestFit f job a c = found' at hstate hfit
      obtain ⟨t, fit⟩ := found
      obtain ⟨t', fit'⟩ := found'
      obtain rfl : fit' = fit := hfit
      simp only [PassState.bestProposal, htook, htook']
      cases fit' with
      | found | noRoom | overQuota => exact ih _ _ hstate

theorem placeEarliest (candidates : List (Alternative × Candidate)) (hs : R s s')
    (hjob : about job) :
    R (PassState.placeEarliest f job candidates s).1 (PassState.placeEarliest f job candidates s').1 ∧
      (PassState.placeEarliest f job candidates s').2 =
        (PassState.placeEarliest f job candidates s).2 := by
  obtain ⟨hstate, hsame⟩ := h.bestProposal job candidates none none hs
  obtain ⟨fits, best, hit, hsearch, hbest⟩ := bestProposal_proposes f job candidates s
  rw [hsearch] at hstate hsame
  simp only [PassState.placeEarliest, hsearch]
  generalize PassState.bestProposal f job candidates none none s' = found' at hstate hsame
  obtain ⟨t', found'⟩ := found'
  obtain rfl : found' = (best, hit) := hsame
  cases best with
  | none => cases hit <;> exact ⟨h.decide _ _ _ _ hstate hjob, rfl⟩
  | some p =>
      -- What is proposed was found by an attempt, and it is found in both states.
      obtain ⟨hnow, e, _, hcandidate, hattempt⟩ := hbest p rfl
      rw [← hcandidate] at hattempt
      have hfound : { s with fits := fits }.attempt f job p.candidate p.start = .found p.resources :=
        hattempt
      simp only [commit_of_attempt hfound, commit_of_attempt ((h.attempt hstate hnow).trans hfound)]
      have hbooked := h.booked p.candidate p.start p.resources hstate hjob
      split
      · exact ⟨h.launch _ _ hbooked hjob, rfl⟩
      · exact ⟨h.decide _ _ _ _ hbooked hjob, rfl⟩

theorem place (candidates : List (Alternative × Candidate)) (hs : R s s') (hjob : about job) :
    R (PassState.place f job candidates s).1 (PassState.place f job candidates s').1 ∧
      (PassState.place f job candidates s').2 = (PassState.place f job candidates s).2 := by
  simp only [PassState.place]
  cases f.config.policy with
  | fifo => exact h.placeNow candidates _ hs hjob
  | backfill => exact h.placeEarliest candidates hs hjob

theorem decideUnmatched (results : List (Except Error Candidate)) (hs : R s s')
    (hjob : about job) : R (s.decideUnmatched job results) (s'.decideUnmatched job results) := by
  simp only [PassState.decideUnmatched]
  split <;> exact h.decide _ _ _ _ hs hjob

theorem consider (hs : R s s') (hjob : about job) :
    R (PassState.consider f s job) (PassState.consider f s' job) := by
  simp only [PassState.consider, h.blocker hs]
  cases hblocker : s.blocker with
  | some blocker => exact h.decide _ _ _ _ hs hjob
  | none =>
      simp only [h.answers job hs]
      have hasked := h.withBlocker none (h.asked job hs)
      split
      · exact h.decideUnmatched _ hasked hjob
      · obtain ⟨hplaced, hsame⟩ :=
          h.place (matched job (s.matcher.forJob f.catalog job).2) hasked hjob
        rw [hsame]
        split
        · exact hplaced
        · exact h.withBlocker _ (h.wish job _ hplaced)

end Queues

theorem perform {task : Task} (hs : R s s') (htask : task ≠ .showBestEffort)
    (hjob : ∀ job, task.job? = some job → about job) :
    R (PassState.perform f s task) (PassState.perform f s' task) := by
  cases task with
  | review job => exact h.reviewReservation hs (hjob job rfl)
  | reserve job => exact h.placeReservation hs (hjob job rfl)
  | openQueue => exact h.withBlocker none hs
  | consider job => exact h.consider hs (hjob job rfl)
  | showBestEffort => exact absurd rfl htask

theorem run {tasks : List Task} (htasks : .showBestEffort ∉ tasks)
    (hjobs : ∀ task ∈ tasks, ∀ job, task.job? = some job → about job) (hs : R s s') :
    R (tasks.foldl (PassState.perform f) s) (tasks.foldl (PassState.perform f) s') := by
  induction tasks generalizing s s' with
  | nil => exact hs
  | cons task rest ih =>
      obtain ⟨htask, hrest⟩ := not_or.1 (mt List.mem_cons.2 htasks)
      obtain ⟨hjob, hjobs'⟩ := List.forall_mem_cons.1 hjobs
      exact ih hrest hjobs' (h.perform hs (fun heq => htask heq.symm) hjob)

end Simulation

end PassState

end ClusterPlan
