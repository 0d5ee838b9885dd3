import ClusterPlan.Proofs.Pass.Optimal

/-!
The strict policy. The normal jobs of a queue that the catalog can serve are placed in order, all of them
at the present second, until one of them cannot start. A job that nobody holds up gets the first of its
alternatives that can start.
-/

namespace ClusterPlan

namespace Frame

variable {f : Frame} {job : Job} {queue : Name .queue} {bestEffort : Bool}

/-- The jobs of a queue that reserve nothing, in order, either the regular or the best-effort ones. -/
def normalJobs (f : Frame) (bestEffort : Bool) (queue : Name .queue) : List Job :=
  (f.queueJobs queue).filter fun j => !j.isReservation && j.isBestEffort == bestEffort

/-- Whether the catalog can serve some alternative of the job. -/
def serves (f : Frame) (job : Job) : Bool :=
  job.alternatives.any fun a => (f.catalog.candidate job.filter a).isOk

theorem considers_eq (f : Frame) (bestEffort : Bool) (queue : Name .queue) :
    f.considers bestEffort queue =
      .openQueue :: (f.normalJobs bestEffort queue).map Task.consider :=
  rfl

theorem mem_normalJobs : job ∈ f.normalJobs bestEffort queue ↔
    job ∈ f.queueJobs queue ∧ job.isReservation = false ∧ job.isBestEffort = bestEffort := by
  simp only [normalJobs, List.mem_filter, Bool.and_eq_true, Bool.not_eq_true', beq_iff_eq]

/-- No normal job has a turn among those of another queue or of the other kind. -/
theorem not_mem_normalJobs_of_considers {queue' : Name .queue} {bestEffort' : Bool} {task : Task}
    (h : task ∈ f.considers bestEffort' queue') (hjob : task.job? = some job)
    (hne : queue' ≠ queue ∨ bestEffort' ≠ bestEffort) : job ∉ f.normalJobs bestEffort queue := by
  intro hmem
  obtain ⟨hqueued, _, hkind⟩ := mem_normalJobs.1 hmem
  rcases mem_considers.1 h with rfl | ⟨j, hj, _, hkind', rfl⟩
  · cases hjob
  · cases hjob
    rcases hne with hne | hne
    · exact hne ((mem_queueJobs.1 hj).2.1.symm.trans (mem_queueJobs.1 hqueued).2.1)
    · exact hne (hkind'.symm.trans hkind)

theorem not_mem_normalJobs_of_reservation {task : Task}
    (h : task ∈ f.config.queues.flatMap f.reviews ++ f.config.queues.flatMap f.reserves)
    (hjob : task.job? = some job) : job ∉ f.normalJobs bestEffort queue := by
  intro hmem
  have hplain := (mem_normalJobs.1 hmem).2.1
  simp only [List.mem_append, List.mem_flatMap] at h
  rcases h with ⟨q, _, h⟩ | ⟨q, _, h⟩
  · obtain ⟨j, _, hflag, rfl⟩ := mem_reviews.1 h
    cases hjob
    simp [Job.isReservation, hflag] at hplain
  · obtain ⟨j, _, hflag, rfl⟩ := mem_reserves.1 h
    cases hjob
    simp [Job.isReservation, hflag] at hplain

/-- In an agenda without repeated queues the normal jobs of a queue have their turns one after the
other, and no turn elsewhere. -/
theorem agenda_eq_considers (hnodup : f.config.queues.Nodup) (hqueue : queue ∈ f.config.queues)
    (bestEffort : Bool) :
    ∃ front back, f.agenda = front ++ f.considers bestEffort queue ++ back ∧
      ∀ task ∈ front ++ back, ∀ job, task.job? = some job →
        job ∉ f.normalJobs bestEffort queue := by
  obtain ⟨before, after, hqueues⟩ := List.append_of_mem hqueue
  have hothers : ∀ q ∈ before ++ after, q ≠ queue := by
    rw [hqueues] at hnodup
    rintro q hq rfl
    exact (List.nodup_cons.1 (List.nodup_middle.1 hnodup)).1 hq
  have hturns : ∀ kind, f.config.queues.flatMap (f.considers kind) =
      before.flatMap (f.considers kind) ++
        (f.considers kind queue ++ after.flatMap (f.considers kind)) := fun kind => by
    rw [hqueues, List.flatMap_append, List.flatMap_cons]
  have helsewhere : ∀ queues ⊆ before ++ after, ∀ task ∈ queues.flatMap (f.considers bestEffort),
      ∀ job, task.job? = some job → job ∉ f.normalJobs bestEffort queue :=
    fun queues hqueues task htask job hjob => by
      obtain ⟨q, hq, htask⟩ := List.mem_flatMap.1 htask
      exact not_mem_normalJobs_of_considers htask hjob (Or.inl (hothers q (hqueues hq)))
  have hbefore := helsewhere before (List.subset_append_left _ _)
  have hafter := helsewhere after (List.subset_append_right _ _)
  have hother : ∀ kind, kind ≠ bestEffort → ∀ task ∈ f.config.queues.flatMap (f.considers kind),
      ∀ job, task.job? = some job → job ∉ f.normalJobs bestEffort queue :=
    fun kind hkind task htask job hjob => by
      obtain ⟨q, _, htask⟩ := List.mem_flatMap.1 htask
      exact not_mem_normalJobs_of_considers htask hjob (Or.inr hkind)
  cases bestEffort with
  | false =>
      refine ⟨f.config.queues.flatMap f.reviews ++ f.config.queues.flatMap f.reserves ++
        before.flatMap (f.considers false), after.flatMap (f.considers false) ++
          .showBestEffort :: f.config.queues.flatMap (f.considers true), ?_, ?_⟩
      · rw [agenda, hturns false]
        simp only [List.append_assoc]
      · intro task htask job hjob
        simp only [List.mem_append, List.mem_cons] at htask
        rcases htask with (htask | htask) | htask | rfl | htask
        · exact not_mem_normalJobs_of_reservation (List.mem_append.2 htask) hjob
        · exact hbefore task htask job hjob
        · exact hafter task htask job hjob
        · cases hjob
        · exact hother true (by decide) task htask job hjob
  | true =>
      refine ⟨f.config.queues.flatMap f.reviews ++ f.config.queues.flatMap f.reserves ++
        f.config.queues.flatMap (f.considers false) ++
          .showBestEffort :: before.flatMap (f.considers true),
        after.flatMap (f.considers true), ?_, ?_⟩
      · rw [agenda, hturns true]
        simp only [List.append_assoc, List.cons_append]
      · intro task htask job hjob
        simp only [List.mem_append, List.mem_cons] at htask
        rcases htask with ((htask | htask) | rfl | htask) | htask
        · exact not_mem_normalJobs_of_reservation (List.mem_append.2 htask) hjob
        · exact hother false (by decide) task htask job hjob
        · cases hjob
        · exact hbefore task htask job hjob
        · exact hafter task htask job hjob

/-- A candidate can start now: it ends by the horizon, it can be chosen from what is free up to the end
of its security time, and the quotas allow what is chosen. -/
structure StartsNow (f : Frame) (s : PassState) (job : Job) (c : Candidate)
    (resources : OrdinalSet) : Prop where
  ends : f.now + c.walltime - 1 ≤ f.horizon
  chosen : c.pick? (s.timeline.freeOver f.now
    (min (f.now + c.walltime - 1 + f.security) f.horizon)) = some resources
  allowed : job.isWithoutQuotas = true ∨ s.ledger.refusal? ⟨s.ledger.claimant job, resources.card,
    f.now, min (f.now + c.walltime - 1 + f.security) f.horizon⟩ = none

end Frame

namespace PassState

variable {f : Frame} {s s' : PassState} {job : Job} {c : Candidate} {resources : OrdinalSet}

theorem serves_eq_false_iff : f.serves job = false ↔ candidatesOf f.catalog job = [] := by
  rw [Frame.serves, List.any_eq_false, List.eq_nil_iff_forall_not_mem]
  constructor
  · intro h e he
    obtain ⟨ha, hc⟩ := mem_candidatesOf.1 he
    exact h e.1 ha (by rw [hc]; rfl)
  · intro h a ha hok
    cases hc : f.catalog.candidate job.filter a with
    | error _ =>
        rw [hc] at hok
        cases hok
    | ok c => exact h (a, c) (mem_candidatesOf.2 ⟨ha, hc⟩)

section Turns

/-- What the turn of a job comes to, if no other one holds it up. -/
inductive Admission (f : Frame) (s s' : PassState) (job : Job) : Prop where
  | passedOver : f.serves job = false → s'.commitments = s.commitments → s'.blocker = none →
      Admission f s s' job
  | placed {c : Candidate} {resources : OrdinalSet} : f.serves job = true →
      s'.commitments = s.commitments ++ [commitmentOf f job c f.now resources] →
      s'.blocker = none → Admission f s s' job
  | heldUp : f.serves job = true → s'.commitments = s.commitments → s'.blocker = some job.id →
      Admission f s s' job

theorem blocker_decideUnmatched (s : PassState) (job : Job)
    (results : List (Except Error Candidate)) :
    (s.decideUnmatched job results).commitments = s.commitments ∧
      (s.decideUnmatched job results).blocker = s.blocker := by
  simp only [decideUnmatched]
  split <;> exact ⟨rfl, rfl⟩

theorem admission_consider (hs : Informed f s) (hpolicy : f.config.policy = .fifo)
    (hfree : s.blocker = none) (job : Job) : Admission f s (consider f s job) job := by
  have hstrict : (Policy.fifo == Policy.backfill) = false := by decide
  rw [consider_eq hs.serves hfree]
  cases hserves : f.serves job with
  | false =>
      rw [serves_eq_false_iff.1 hserves, List.isEmpty_nil, if_pos rfl]
      obtain ⟨hcommitments, hblocker⟩ := blocker_decideUnmatched (s.asked f job) job
        (job.alternatives.map (f.catalog.candidate job.filter))
      exact .passedOver hserves hcommitments (hblocker.trans hfree)
  | true =>
      have hsome : (candidatesOf f.catalog job).isEmpty = false := by
        rw [List.isEmpty_eq_false_iff]
        intro hnone
        rw [serves_eq_false_iff.2 hnone] at hserves
        cases hserves
      rw [hsome]
      simp only [Bool.false_eq_true, if_false, place, hpolicy, hstrict, Bool.or_false]
      rcases placeNow_cases f job (candidatesOf f.catalog job) .notEnough (s.asked f job) with
        ⟨fits, o, hwaits⟩ | ⟨fits, e, _, resources, _, hplaced⟩
      · simp only [hwaits, Bool.false_eq_true, if_false]
        exact .heldUp hserves (alike_wishWakeup f job _ _).commitments rfl
      · simp only [hplaced, if_true]
        refine .placed hserves (launch_books ..).1 ?_
        exact (launch_memory ..).blocker.trans ((booked_memory ..).blocker.trans hfree)

theorem consider_of_heldUp {id : Int} (h : s.blocker = some id) (job : Job) :
    (consider f s job).commitments = s.commitments ∧ (consider f s job).blocker = some id := by
  simp only [consider, h]
  exact ⟨rfl, h⟩

end Turns

section Queues

/-- Behind a job that holds them up, no jobs are placed. -/
theorem commitments_of_heldUp {id : Int} (jobs : List Job) (h : s.blocker = some id) :
    ((jobs.map Task.consider).foldl (perform f) s).commitments = s.commitments := by
  induction jobs generalizing s with
  | nil => rfl
  | cons job rest ih =>
      obtain ⟨hcommitments, hblocker⟩ := consider_of_heldUp (f := f) h job
      exact (ih hblocker).trans hcommitments

/-- Of the jobs that the catalog can serve the first ones are placed, as long as all of them can
start. -/
theorem placed_in_order (hpolicy : f.config.policy = .fifo) (jobs : List Job) (hs : Informed f s)
    (hfree : s.blocker = none) :
    ∃ new, ((jobs.map Task.consider).foldl (perform f) s).commitments = s.commitments ++ new ∧
      new.map Commitment.job <+: jobs.filter f.serves ∧
      ∀ c ∈ new, c.placement.assignment.start = f.now := by
  induction jobs generalizing s with
  | nil => exact ⟨[], (List.append_nil _).symm, List.nil_prefix, List.forall_mem_nil _⟩
  | cons job rest ih =>
      have hs' : Informed f (consider f s job) := (hs.step (.consider job)).1
      cases admission_consider hs hpolicy hfree job with
      | passedOver hserves hcommitments hblocker =>
          obtain ⟨new, hnew, horder, hnow⟩ := ih hs' hblocker
          refine ⟨new, ?_, ?_, hnow⟩
          · rw [← hcommitments]
            exact hnew
          · rwa [List.filter_cons_of_neg (by rw [hserves]; nofun)]
      | @placed c resources hserves hcommitments hblocker =>
          obtain ⟨new, hnew, horder, hnow⟩ := ih hs' hblocker
          refine ⟨commitmentOf f job c f.now resources :: new, ?_, ?_, ?_⟩
          · rw [hcommitments, List.append_assoc, List.singleton_append] at hnew
            exact hnew
          · rw [List.filter_cons_of_pos hserves, List.map_cons]
            exact List.cons_prefix_cons.2 ⟨rfl, horder⟩
          · exact List.forall_mem_cons.2 ⟨rfl, hnow⟩
      | heldUp hserves hcommitments hblocker =>
          refine ⟨[], ?_, List.nil_prefix, List.forall_mem_nil _⟩
          rw [List.append_nil, ← hcommitments]
          exact commitments_of_heldUp rest hblocker

end Queues

section FirstAlternative

/-- What can start now is what an attempt at the present second finds. -/
theorem attempt_eq_found_iff (hclock : Time.earliest ≤ f.now) (hs : f.Times s.timeline)
    (hwalltime : 0 < c.walltime) :
    s.attempt f job c f.now = .found resources ↔ f.StartsNow s job c resources := by
  rw [attempt_found_iff hclock hs hwalltime]
  exact ⟨fun h => ⟨h.ends, h.chosen, h.allowed⟩, fun h => ⟨h.ends, h.chosen, h.allowed⟩⟩

theorem firstFitting_cases (attemptNow : Candidate → Attempt)
    (candidates : List (Alternative × Candidate)) (obstacle : Obstacle) :
    (∃ o, firstFitting attemptNow candidates obstacle = .error o ∧
      ∀ e ∈ candidates, ∀ r, attemptNow e.2 ≠ .found r) ∨
    ∃ front e back r, candidates = front ++ e :: back ∧
      firstFitting attemptNow candidates obstacle = .ok (e.2, r) ∧ attemptNow e.2 = .found r ∧
      ∀ d ∈ front, ∀ r', attemptNow d.2 ≠ .found r' := by
  induction candidates generalizing obstacle with
  | nil => exact Or.inl ⟨obstacle, rfl, nofun⟩
  | cons e rest ih =>
      obtain ⟨a, c⟩ := e
      -- A candidate that cannot start leaves the search to the ones behind it.
      have hskip : ∀ o, (∀ r, attemptNow c ≠ .found r) →
          firstFitting attemptNow ((a, c) :: rest) obstacle = firstFitting attemptNow rest o →
          (∃ o', firstFitting attemptNow ((a, c) :: rest) obstacle = .error o' ∧
            ∀ e ∈ (a, c) :: rest, ∀ r, attemptNow e.2 ≠ .found r) ∨
          ∃ front e back r, (a, c) :: rest = front ++ e :: back ∧
            firstFitting attemptNow ((a, c) :: rest) obstacle = .ok (e.2, r) ∧
            attemptNow e.2 = .found r ∧ ∀ d ∈ front, ∀ r', attemptNow d.2 ≠ .found r' := by
        intro o hnot hgo
        rcases ih o with ⟨o', herror, hnone⟩ | ⟨front, e, back, r, hsplit, hok, hfound, hfront⟩
        · exact Or.inl ⟨o', hgo.trans herror, List.forall_mem_cons.2 ⟨hnot, hnone⟩⟩
        · exact Or.inr ⟨(a, c) :: front, e, back, r, by rw [hsplit]; rfl, hgo.trans hok, hfound,
            List.forall_mem_cons.2 ⟨hnot, hfront⟩⟩
      cases hattempt : attemptNow c with
      | found r =>
          refine Or.inr ⟨[], (a, c), rest, r, rfl, ?_, hattempt, nofun⟩
          simp only [firstFitting, hattempt]
      | noRoom =>
          refine hskip obstacle (fun r h => ?_) (by simp only [firstFitting, hattempt])
          rw [hattempt] at h
          cases h
      | overQuota d =>
          refine hskip (.fault (.quota d)) (fun r h => ?_) (by simp only [firstFitting, hattempt])
          rw [hattempt] at h
          cases h

/-- A job that nobody holds up is placed if and only if one of its alternatives can start now, and then
with the first declared one that can. -/
inductive AdmittedFirst (f : Frame) (s s' : PassState) (job : Job) : Prop where
  | waits : s'.commitments = s.commitments →
      (∀ a ∈ job.alternatives, ∀ c r, f.catalog.candidate job.filter a = .ok c →
        ¬ f.StartsNow s job c r) → AdmittedFirst f s s' job
  | placed {before after : List Alternative} {a : Alternative} {c : Candidate} {r : OrdinalSet} :
      job.alternatives = before ++ a :: after → f.catalog.candidate job.filter a = .ok c →
      f.StartsNow s job c r →
      (∀ b ∈ before, ∀ d r', f.catalog.candidate job.filter b = .ok d → ¬ f.StartsNow s job d r') →
      s'.commitments = s.commitments ++ [commitmentOf f job c f.now r] → AdmittedFirst f s s' job

theorem admittedFirst_consider (hclock : Time.earliest ≤ f.now) (hs : Informed f s)
    (hpolicy : f.config.policy = .fifo) (hfree : s.blocker = none)
    (hsteady : ∀ e ∈ candidatesOf f.catalog job, e.2.Steady) :
    AdmittedFirst f s (consider f s job) job := by
  have hstrict : (Policy.fifo == Policy.backfill) = false := by decide
  have hiff : ∀ e ∈ candidatesOf f.catalog job, ∀ r,
      s.attempt f job e.2 f.now = .found r ↔ f.StartsNow s job e.2 r := fun e he r =>
    attempt_eq_found_iff hclock hs.times (walltime_pos_of_mem_candidatesOf he)
  obtain ⟨fits, hplace⟩ := placeNow_eq (s := s.asked f job) .notEnough hs.times hs.right
    matches_candidatesOf fun _ => hsteady
  have hconsider : (consider f s job).commitments =
      ({ s.asked f job with fits := fits }.settledNow f job
        (firstFitting (s.attempt f job · f.now) (candidatesOf f.catalog job)
          .notEnough)).1.commitments := by
    rw [consider_eq hs.serves hfree]
    cases hnone : (candidatesOf f.catalog job).isEmpty with
    | true =>
        rw [if_pos rfl, (blocker_decideUnmatched ..).1, List.isEmpty_iff.1 hnone]
        rfl
    | false =>
        simp only [Bool.false_eq_true, if_false, place, hpolicy, hstrict, Bool.or_false]
        rw [hplace]
        split
        · rfl
        · exact (alike_wishWakeup f job _ _).commitments
  rcases firstFitting_cases (s.attempt f job · f.now) (candidatesOf f.catalog job) .notEnough with
    ⟨o, herror, hnone⟩ | ⟨front, e, back, r, hsplit, hok, hfound, hfront⟩
  · rw [herror] at hconsider
    refine .waits hconsider fun a ha c r hc hstarts => ?_
    have hmem : (a, c) ∈ candidatesOf f.catalog job := mem_candidatesOf.2 ⟨ha, hc⟩
    exact hnone (a, c) hmem r ((hiff (a, c) hmem r).2 hstarts)
  · rw [hok] at hconsider
    obtain ⟨before, a, after, halternatives, hc, hbefore⟩ := front_of_candidatesOf hsplit
    have hmem : e ∈ candidatesOf f.catalog job := by
      rw [hsplit]
      exact List.mem_append_right _ List.mem_cons_self
    refine .placed halternatives hc ((hiff e hmem r).1 hfound) (fun b hb d r' hd hstarts => ?_) ?_
    · have hfirst := hbefore b hb d hd
      have hmem' : (b, d) ∈ candidatesOf f.catalog job := by
        rw [hsplit]
        exact List.mem_append_left _ hfirst
      exact hfront (b, d) hfirst r' ((hiff (b, d) hmem' r').2 hstarts)
    · rw [hconsider]
      exact (launch_books ..).1

end FirstAlternative

end PassState

/-- The normal jobs of a queue are admitted strictly. -/
structure Frame.AdmitsStrictly (f : Frame) (m : Matcher) (bestEffort : Bool)
    (queue : Name .queue) : Prop where
  inOrder : ((f.run m).report.commitments.filter fun c =>
      decide (c.job ∈ f.normalJobs bestEffort queue)).map Commitment.job <+:
    (f.normalJobs bestEffort queue).filter f.serves
  now : ∀ c ∈ (f.run m).report.commitments, c.job ∈ f.normalJobs bestEffort queue →
    c.placement.assignment.start = f.now
  first : ∀ front job back, f.agenda = front ++ .consider job :: back →
    job ∈ f.normalJobs bestEffort queue →
    let s := front.foldl (PassState.perform f) (PassState.start f m)
    let s' := PassState.perform f s (.consider job)
    s.blocker = none →
    (∀ a ∈ job.alternatives, (f.catalog.candidate job.filter a).isOk = true →
      a.parts.length = 1) →
    PassState.AdmittedFirst f s s' job ∧ s'.commitments <+: (f.run m).report.commitments

open PassState in
theorem admitsStrictly_of_fifo {f : Frame} {uses : List Matcher.Use}
    (hapart : Matcher.SnapshotsApart (f.catalog :: uses.map Matcher.Use.catalog))
    (hclock : Time.earliest ≤ f.now) (hpolicy : f.config.policy = .fifo)
    (hnodup : f.config.queues.Nodup) {queue : Name .queue} (hqueue : queue ∈ f.config.queues)
    (bestEffort : Bool) : f.AdmitsStrictly (.after uses) bestEffort queue := by
  have hstart : Informed f (start f (.after uses)) := informed_start (Matcher.ready_after hapart)
  -- The commitments for these jobs are those of their turns.
  obtain ⟨front, back, hagenda, hothers⟩ := Frame.agenda_eq_considers hnodup hqueue bestEffort
  have hinformed := informed_run front hstart
  obtain ⟨earlier, hearlier, hfront⟩ := new_commitment_of_run f front _ hstart.times.wellFormed
  obtain ⟨new, hnew, horder, hnow⟩ := placed_in_order hpolicy (f.normalJobs bestEffort queue)
    (hinformed.step .openQueue).1 rfl
  have hturns := informed_run (f.considers bestEffort queue) hinformed
  obtain ⟨later, hlater, hback⟩ := new_commitment_of_run f back _ hturns.times.wellFormed
  have hnone : (start f (Matcher.after uses)).commitments = [] := (loaded_start f _).commitments
  have hall : (finished f (.after uses)).commitments = earlier ++ new ++ later := by
    rw [finished, hagenda, List.foldl_append, List.foldl_append, hlater, Frame.considers_eq,
      List.foldl_cons, hnew]
    simp only [perform, hearlier, hnone, List.nil_append]
  have hmine : ∀ c ∈ new, c.job ∈ f.normalJobs bestEffort queue := fun c hc =>
    (List.mem_filter.1 (horder.subset (List.mem_map_of_mem hc))).1
  have hforeign : ∀ c ∈ earlier ++ later, c.job ∉ f.normalJobs bestEffort queue := by
    intro c hc
    rcases List.mem_append.1 hc with hc | hc
    · obtain ⟨⟨task, htask, hjob⟩, _⟩ := hfront c hc
      exact hothers task (List.mem_append_left _ htask) c.job hjob
    · obtain ⟨⟨task, htask, hjob⟩, _⟩ := hback c hc
      exact hothers task (List.mem_append_right _ htask) c.job hjob
  refine ⟨?_, ?_, ?_⟩
  · have hfilter : (finished f (.after uses)).commitments.filter (fun c =>
        decide (c.job ∈ f.normalJobs bestEffort queue)) = new := by
      rw [hall]
      exact filter_middle
        (fun c hc => decide_eq_false (hforeign c (List.mem_append_left _ hc)))
        (fun c hc => decide_eq_true (hmine c hc))
        (fun c hc => decide_eq_false (hforeign c (List.mem_append_right _ hc)))
    simp only [Frame.run, report, hfilter]
    exact horder
  · intro c hc hjob
    have hc' : c ∈ earlier ++ new ++ later := hall ▸ hc
    simp only [List.mem_append] at hc'
    rcases hc' with (hc' | hc') | hc'
    · exact absurd hjob (hforeign c (List.mem_append_left _ hc'))
    · exact hnow c hc'
    · exact absurd hjob (hforeign c (List.mem_append_right _ hc'))
  · intro front job back hagenda _ s s' hfree hsingle
    have hs : Informed f s := informed_run front hstart
    refine ⟨admittedFirst_consider hclock hs hpolicy hfree fun e he => ?_, ?_⟩
    · obtain ⟨ha, hc⟩ := mem_candidatesOf.1 he
      obtain ⟨_, _, _, _, hparts⟩ := Catalog.candidate_eq_ok hc
      exact Candidate.steady_of_singlePart (hparts.trans (hsingle e.1 ha (by rw [hc]; rfl)))
    · have hrun : finished f (.after uses) = back.foldl (perform f) s' := by
        rw [finished, hagenda, List.foldl_append, List.foldl_cons]
      obtain ⟨new, hnew, _⟩ := new_commitment_of_run f back s'
        (hs.step (.consider job)).1.times.wellFormed
      exact ⟨new, (hrun ▸ hnew).symm⟩

section ThreeInLine

/-- A job for two resources, or for one. -/
def twoOrOne : Job :=
  { exampleJob 5 [] 1 with
    alternatives := [⟨50, 60, [⟨none, [⟨"resource_id", 2⟩]⟩]⟩,
      ⟨51, 30, [⟨none, [⟨"resource_id", 1⟩]⟩]⟩] }

/-- Two resources, the first in use. Of the three jobs the first one asks for more than there is. -/
def threeInLineFrame : Frame :=
  { busyFirstFrame with
    waiting := [exampleJob 2 [] 3, twoOrOne, exampleJob 6 [] 1]
    config := { Config.default with securityTime := 0 } }

theorem normalJobs_threeInLineFrame :
    threeInLineFrame.normalJobs false ⟨"default"⟩ = [exampleJob 2 [] 3, twoOrOne, exampleJob 6 [] 1] := by
  cbv

theorem agenda_threeInLineFrame : threeInLineFrame.agenda =
    [.openQueue, .consider (exampleJob 2 [] 3), .consider twoOrOne, .consider (exampleJob 6 [] 1),
      .showBestEffort, .openQueue] := by
  cbv

/-- The job that asks for too much holds up nobody; the next one takes what is free, and the last one
has to wait. -/
theorem admitsStrictly_of_fifo_threeInLine :
    threeInLineFrame.config.policy = .fifo ∧ threeInLineFrame.config.queues = [⟨"default"⟩] ∧
      (threeInLineFrame.normalJobs false ⟨"default"⟩).filter threeInLineFrame.serves =
        [twoOrOne, exampleJob 6 [] 1] ∧
      (threeInLineFrame.run .empty).report.commitments =
        [⟨twoOrOne, ⟨129, ⟨51, 100, 30, .single 1⟩⟩⟩] ∧
      threeInLineFrame.AdmitsStrictly .empty false ⟨"default"⟩ := by
  have hcommitments : (PassState.finished threeInLineFrame .empty).commitments =
      [⟨twoOrOne, ⟨129, ⟨51, 100, 30, .single 1⟩⟩⟩] := by
    rw [PassState.finished, agenda_threeInLineFrame]
    decide +kernel
  refine ⟨rfl, rfl, ?_, hcommitments, ?_⟩
  · rw [normalJobs_threeInLineFrame]
    decide +kernel
  · exact @admitsStrictly_of_fifo threeInLineFrame [] (Matcher.snapshotsApart_singleton _) (by decide) rfl
      (List.nodup_singleton _) _ (List.mem_singleton_self _) false

end ThreeInLine

end ClusterPlan
