import ClusterPlan.Proofs.Matching.Stability
import ClusterPlan.Proofs.Pass.Optimal

/-!
The place that a pass has to propose for a job. It depends on what is free alone, and less room leaves
it as it is, as long as the place itself is still there.
-/

namespace ClusterPlan.PassState

variable {f : Frame} {s s' u : PassState} {job : Job} {c : Candidate} {p : Proposal}

/-- The place that the policy finds for a job. -/
def proposal? (f : Frame) (s : PassState) (job : Job) : Option Proposal :=
  match f.config.policy with
  | .fifo =>
      (firstFitting (s.attempt f job · f.now) (candidatesOf f.catalog job) .notEnough).toOption.map
        fun found => ⟨found.1, f.now, found.2⟩
  | .backfill => (soonest (s.freshFit f job) (candidatesOf f.catalog job) none none).1

/-- What comes of the turn of a job: nothing, if another one holds it up. -/
def turn? (f : Frame) (s : PassState) (job : Job) : Option Proposal :=
  if s.blocker.isSome then none else proposal? f s job

def Proposal.commitment (f : Frame) (job : Job) (p : Proposal) : Commitment :=
  commitmentOf f job p.candidate p.start p.resources

/-- Which job holds up those behind it after the turn of a job. -/
def blockerAfter (f : Frame) (job : Job) (placed : Bool) : Option Int → Option Int
  | some blocker => some blocker
  | none =>
      if placed || f.config.policy == .backfill || (candidatesOf f.catalog job).isEmpty then none
      else some job.id

section Turns

theorem proposal?_asked : proposal? f (s.asked f job) job = proposal? f s job := rfl

theorem settledSoonest_decides (s : PassState) (f : Frame) (job : Job) (p : Proposal)
    (hit : Option Dimension) : ∃ d, (s.settledSoonest f job (some p, hit)).1.decisions =
      s.decisions ++ [d] ∧ d.job = job.id := by
  obtain ⟨ledger, claims, hbooked⟩ := booked_eq s f job p.candidate p.start p.resources
  simp only [settledSoonest]
  split
  · obtain ⟨d, hd, hdecided⟩ := decisions_launch
      (s.booked f job p.candidate p.start p.resources) job p.candidate p.resources
    refine ⟨d, ?_, hdecided.id⟩
    rw [hd, hbooked]
  · rw [hbooked]
    exact ⟨_, rfl, rfl⟩

/-- A search ends with the proposal, or with none. -/
theorem place_eq (hs : f.Times s.timeline) (hright : FitsRight f s.timeline s.fits)
    (hsteady : ∀ e ∈ candidatesOf f.catalog job, e.2.Steady) :
    (proposal? f s job = none ∧ ∃ fits note, place f job (candidatesOf f.catalog job) s =
      ({ s with fits := fits }.keepWaiting job note, false)) ∨
    ∃ p fits, proposal? f s job = some p ∧ place f job (candidatesOf f.catalog job) s =
      { s with fits := fits }.settledSoonest f job (some p, none) := by
  simp only [place, proposal?]
  cases f.config.policy with
  | fifo =>
      obtain ⟨fits, hplace⟩ := placeNow_eq .notEnough hs hright matches_candidatesOf fun _ => hsteady
      simp only [hplace]
      cases firstFitting (s.attempt f job · f.now) (candidatesOf f.catalog job) .notEnough with
      | error obstacle => exact Or.inl ⟨rfl, fits, _, rfl⟩
      | ok found =>
          refine Or.inr ⟨⟨found.1, f.now, found.2⟩, fits, rfl, ?_⟩
          simp only [settledNow, settledSoonest, if_true]
  | backfill =>
      obtain ⟨fits, hplace⟩ := placeEarliest_eq hs hright matches_candidatesOf fun _ => hsteady
      simp only [hplace]
      obtain ⟨best, hit, hsoonest⟩ : ∃ best hit, soonest (s.freshFit f job)
          (candidatesOf f.catalog job) none none = (best, hit) := ⟨_, _, rfl⟩
      rw [hsoonest]
      cases best with
      | none =>
          obtain ⟨note, hwaits⟩ := settledSoonest_none { s with fits := fits } f job hit
          exact Or.inl ⟨rfl, fits, note, hwaits⟩
      | some p => exact Or.inr ⟨p, fits, rfl, rfl⟩

theorem proposal?_of_no_candidates (h : candidatesOf f.catalog job = []) :
    proposal? f s job = none := by
  simp only [proposal?, h]
  cases f.config.policy <;> rfl

/-- What the turn of a job does: it commits the proposal, it may hold up those behind the job, and it
decides once. A job whose state changes holds up nobody. -/
structure TakesTurn (f : Frame) (s s' : PassState) (job : Job) : Prop where
  commitments : s'.commitments =
    s.commitments ++ ((turn? f s job).map (Proposal.commitment f job)).toList
  blocker : s'.blocker = blockerAfter f job (turn? f s job).isSome s.blocker
  decided : ∃ d, s'.decisions = s.decisions ++ [d] ∧ d.job = job.id ∧
    (d.changed = true → s'.blocker = s.blocker)

/-- The decision to let a waiting job wait changes nothing. -/
theorem unchanged_of_waiting (hstate : job.state = .waiting) (hflag : job.reservation = .none) :
    (JobState.waiting != job.state || Reservation.none != job.reservation) = false := by
  rw [hstate, hflag]
  rfl

/-- A turn that commits nothing. -/
theorem TakesTurn.of_none {d : Decision} (hturn : turn? f s job = none)
    (hcommitments : s'.commitments = s.commitments)
    (hblocker : s'.blocker = blockerAfter f job false s.blocker)
    (hdecisions : s'.decisions = s.decisions ++ [d]) (hjob : d.job = job.id)
    (hchanged : d.changed = true → s'.blocker = s.blocker) : TakesTurn f s s' job where
  commitments := by rw [hturn, hcommitments]; exact (List.append_nil _).symm
  blocker := by rw [hturn]; exact hblocker
  decided := ⟨d, hdecisions, hjob, hchanged⟩

/-- Whatever is decided about a job without candidates, it holds up nobody. -/
theorem takesTurn_of_no_candidates (hblocker : s.blocker = none)
    (hempty : (candidatesOf f.catalog job).isEmpty = true) (outcome : Outcome) (state : JobState)
    (reservation : Reservation) (note : Note) :
    TakesTurn f s ((s.asked f job).decide job outcome state reservation note) job := by
  have hnone := proposal?_of_no_candidates (s := s) (List.isEmpty_iff.1 hempty)
  have hturn : turn? f s job = none := by simp [turn?, hblocker, hnone]
  refine .of_none hturn rfl ?_ rfl rfl fun _ => rfl
  rw [hblocker]
  simp only [blockerAfter, hempty, Bool.or_true, if_true]
  exact hblocker

/-- A turn that books the proposal. -/
theorem takesTurn_of_proposal (hblocker : s.blocker = none) (hsome : proposal? f s job = some p)
    (fits : Dictionary Shape FirstRoom) :
    TakesTurn f s ({ s.asked f job with fits := fits }.settledSoonest f job (some p, none)).1 job := by
  have hturn : turn? f s job = some p := by simp [turn?, hblocker, hsome]
  have hmemory := settledSoonest_memory { s.asked f job with fits := fits } f job (some p, none)
  obtain ⟨d, hd, hjob⟩ := settledSoonest_decides { s.asked f job with fits := fits } f job p none
  refine ⟨?_, ?_, d, hd, hjob, fun _ => hmemory.blocker⟩
  · rw [hturn]
    exact settledSoonest_commitments ..
  · rw [hmemory.blocker, hturn]
    simp only [asked, hblocker, blockerAfter, Option.isSome_some, Bool.true_or, if_true]

theorem takesTurn_consider (hs : Informed f s)
    (hsteady : ∀ e ∈ candidatesOf f.catalog job, e.2.Steady) (hstate : job.state = .waiting)
    (hflag : job.reservation = .none) : TakesTurn f s (consider f s job) job := by
  have hunchanged := unchanged_of_waiting hstate hflag
  cases hblocker : s.blocker with
  | some blocker =>
      have hturn : turn? f s job = none := by simp [turn?, hblocker]
      simp only [consider, hblocker]
      refine .of_none hturn rfl ?_ rfl rfl fun hchanged => ?_
      · rw [hblocker]
        exact hblocker
      · exact absurd (hunchanged.symm.trans hchanged) Bool.false_ne_true
  | none =>
      rw [consider_eq hs.serves hblocker]
      split
      · rename_i hempty
        have hdecides := takesTurn_of_no_candidates hblocker hempty
        simp only [decideUnmatched]
        split
        · exact hdecides _ _ _ _
        · exact hdecides _ _ _ _
        · exact hdecides _ _ _ _
      · rename_i hcandidates
        rcases place_eq (s := s.asked f job) hs.times hs.right hsteady with
          ⟨hnone, fits, note, hplace⟩ | ⟨p, fits, hsome, hplace⟩
        · rw [proposal?_asked] at hnone
          have hturn : turn? f s job = none := by simp [turn?, hblocker, hnone]
          simp only [hplace, Bool.false_or]
          split
          · rename_i hbackfill
            refine .of_none hturn rfl ?_ rfl rfl fun _ => rfl
            rw [hblocker]
            simp only [blockerAfter, hbackfill, Bool.true_or, Bool.or_true, if_true]
            exact hblocker
          · rename_i hstrict
            have hwish := alike_wishWakeup f job (candidatesOf f.catalog job)
              ({ s.asked f job with fits := fits }.keepWaiting job note)
            refine .of_none hturn hwish.commitments ?_ hwish.decisions rfl fun hchanged => ?_
            · rw [hblocker]
              simp [blockerAfter, hstrict, hcandidates]
            · exact absurd (hunchanged.symm.trans hchanged) Bool.false_ne_true
        · rw [proposal?_asked] at hsome
          have hplaced : ({ s.asked f job with fits := fits }.settledSoonest f job
            (some p, none)).2 = true := rfl
          simp only [hplace, hplaced, Bool.true_or, if_true]
          exact takesTurn_of_proposal hblocker hsome fits

end Turns

section Searches

variable {attemptAt attemptAt' : Candidate → Attempt} {fitOf fitOf' : Candidate → Fit}
  {candidates : List (Alternative × Candidate)}

/-- Candidates that fail again and a first one that succeeds again leave the first one the same. -/
theorem firstFitting_eq {obstacle : Obstacle}
    (hagain : ∀ e ∈ candidates, attemptAt e.2 = .noRoom → attemptAt' e.2 = .noRoom)
    (hquota : ∀ e ∈ candidates, ∀ d, attemptAt e.2 ≠ .overQuota d)
    (hfound : ∀ c r, firstFitting attemptAt candidates obstacle = .ok (c, r) →
      attemptAt' c = .found r) :
    firstFitting attemptAt' candidates obstacle = firstFitting attemptAt candidates obstacle := by
  induction candidates with
  | nil => rfl
  | cons e rest ih =>
      obtain ⟨a, c⟩ := e
      obtain ⟨hfirst, hothers⟩ := List.forall_mem_cons.1 hagain
      obtain ⟨hunlimited, hquota⟩ := List.forall_mem_cons.1 hquota
      simp only [firstFitting] at hfound ⊢
      cases hattempt : attemptAt c with
      | noRoom =>
          rw [hattempt] at hfound
          rw [hfirst hattempt]
          exact ih hothers hquota hfound
      | found r =>
          rw [hattempt] at hfound
          rw [hfound c r rfl]
      | overQuota d => exact absurd hattempt (hunlimited d)

theorem FirstSoonest.eq_of_found {front back : List (Alternative × Candidate)}
    {e : Alternative × Candidate} {p q : Proposal} (h : FirstSoonest fitOf front e back p)
    (hcandidate : q.candidate = e.2) (hfound : fitOf e.2 = .found q.start q.resources) : p = q := by
  have hfound' := h.found
  have hcandidate' := h.candidate
  rw [hfound] at hfound'
  cases p
  cases q
  cases hfound'
  rw [Proposal.mk.injEq]
  exact ⟨hcandidate'.trans hcandidate.symm, rfl, rfl⟩

/-- Of two first ones that each search finds no later than its own, neither stands behind the
other. -/
theorem FirstSoonest.not_behind {front back front' back' : List (Alternative × Candidate)}
    {e e' : Alternative × Candidate} {p p' : Proposal} {t t' : Int} {r r' : OrdinalSet}
    (h : FirstSoonest fitOf front e back p) (h' : FirstSoonest fitOf' front' e' back' p')
    (hfound : fitOf e'.2 = .found t r) (hle : Time.windowEnd t e'.2.walltime ≤ p'.last)
    (hfound' : fitOf' e.2 = .found t' r') (hle' : Time.windowEnd t' e.2.walltime ≤ p.last) :
    ¬(e' ∈ back ∧ e ∈ front') := by
  rintro ⟨hback, hfront⟩
  have hafter := h.after e' hback t r hfound
  have hbefore := h'.before e hfront t' r' hfound'
  omega

/-- Fits that come later and a best one that comes again leave the best one the same. -/
theorem Chosen.unique {result result' : Option Proposal} (h : Chosen fitOf candidates none result)
    (h' : Chosen fitOf' candidates none result')
    (hlater : ∀ e ∈ candidates, ∀ t r, fitOf' e.2 = .found t r → ∃ t' r', fitOf e.2 = .found t' r' ∧
      Time.windowEnd t' e.2.walltime ≤ Time.windowEnd t e.2.walltime)
    (hagain : ∀ p, result = some p → fitOf' p.candidate = .found p.start p.resources) :
    result' = result := by
  rcases h with ⟨rfl, hnone⟩ | ⟨front, e, back, p, hsplit, hfirst, _, rfl⟩ <;>
    rcases h' with ⟨rfl, hnone'⟩ | ⟨front', e', back', p', hsplit', hfirst', _, rfl⟩
  · rfl
  · have he' : e' ∈ candidates := by simp [hsplit']
    obtain ⟨t, r, hfound, _⟩ := hlater e' he' _ _ hfirst'.found
    obtain ⟨_, hold, _⟩ := hnone e' he' t r hfound
    cases hold
  · have he : e ∈ candidates := by simp [hsplit]
    have hfound := hagain p rfl
    rw [hfirst.candidate] at hfound
    obtain ⟨_, hold, _⟩ := hnone' e he _ _ hfound
    cases hold
  · have hfound := hagain p rfl
    rw [hfirst.candidate] at hfound
    have hlast : p.last = Time.windowEnd p.start e.2.walltime := by
      rw [Proposal.last, hfirst.candidate]
    have hlast' : p'.last = Time.windowEnd p'.start e'.2.walltime := by
      rw [Proposal.last, hfirst'.candidate]
    obtain ⟨t, r, hsooner, hle⟩ := hlater e' (by simp [hsplit']) _ _ hfirst'.found
    rcases place_cases (hsplit.symm.trans hsplit') with rfl | hbehind | hbehind
    · exact congrArg some (hfirst'.eq_of_found hfirst.candidate hfound)
    · exact absurd hbehind
        (hfirst.not_behind hfirst' hsooner (hlast' ▸ hle) hfound hlast.ge)
    · exact absurd hbehind
        (hfirst'.not_behind hfirst hfound hlast.ge hsooner (hlast' ▸ hle))

end Searches

section Stability

/-- Two states of a pass, the second with less room. -/
structure LessRoom (f : Frame) (s u : PassState) : Prop where
  times : f.Times s.timeline
  times' : f.Times u.timeline
  free : ∀ o t, u.timeline.Free o t → s.timeline.Free o t

namespace LessRoom

variable {t : Int} {resources : OrdinalSet}

theorem roomAt (h : LessRoom f s u) (hsteady : c.Steady) (hroom : f.RoomAt u.timeline c t) :
    f.RoomAt s.timeline c t :=
  Frame.roomAt_mono h.times h.times' hsteady h.free hroom

theorem fits (h : LessRoom f s u) (hsteady : c.Steady) (hfits : f.Fits u.timeline c t) :
    f.Fits s.timeline c t where
  notBefore := hfits.notBefore
  ends := hfits.ends
  selectable := hsteady _ _ (Timeline.freeOver_mono h.times.wellFormed h.times'.wellFormed
    (h.times'.origin.trans h.times.origin.symm) (h.times'.horizon.trans h.times.horizon.symm) h.free
    _ _) hfits.selectable

/-- What was chosen is chosen again if it is still free. -/
theorem pick?_again {first last : Int} (h : LessRoom f s u) (hproper : c.Proper)
    (hpick : c.pick? (s.timeline.freeOver first last) = some resources)
    (hopen : ∀ o ∈ resources, ∀ t, first ≤ t → t ≤ last → u.timeline.Free o t) :
    c.pick? (u.timeline.freeOver first last) = some resources := by
  have horigin := h.times'.origin.trans h.times.origin.symm
  have hhorizon := h.times'.horizon.trans h.times.horizon.symm
  refine Candidate.pick?_of_between hproper (Timeline.freeOver_mono h.times.wellFormed
    h.times'.wellFormed horigin hhorizon h.free _ _) (fun o ho => ?_) hpick
  obtain ⟨hfirst, hle, hlast, _⟩ :=
    (Timeline.mem_freeOver h.times.wellFormed).1 (Candidate.pick?_subset hpick o ho)
  exact (Timeline.mem_freeOver h.times'.wellFormed).2
    ⟨horigin ▸ hfirst, hle, hhorizon ▸ hlast, hopen o ho⟩

end LessRoom

theorem firstFitting_found {attemptAt : Candidate → Attempt} {obstacle : Obstacle}
    {candidates : List (Alternative × Candidate)} {resources : OrdinalSet}
    (h : firstFitting attemptAt candidates obstacle = .ok (c, resources)) :
    (∃ e ∈ candidates, e.2 = c) ∧ attemptAt c = .found resources := by
  induction candidates generalizing obstacle with
  | nil => cases h
  | cons e rest ih =>
      obtain ⟨a, d⟩ := e
      have go : ∀ {o}, firstFitting attemptAt rest o = .ok (c, resources) →
          (∃ e ∈ (a, d) :: rest, e.2 = c) ∧ attemptAt c = .found resources := by
        intro o ho
        obtain ⟨⟨e, he, hc⟩, hfound⟩ := ih ho
        exact ⟨⟨e, List.mem_cons_of_mem _ he, hc⟩, hfound⟩
      simp only [firstFitting] at h
      cases hattempt : attemptAt d with
      | noRoom =>
          rw [hattempt] at h
          exact go h
      | overQuota _ =>
          rw [hattempt] at h
          exact go h
      | found r =>
          rw [hattempt] at h
          cases h
          exact ⟨⟨(a, c), List.mem_cons_self, rfl⟩, hattempt⟩

section Unlimited

variable {t : Int} {resources : OrdinalSet}

theorem LessRoom.attempt_noRoom (h : LessRoom f s u) (hsteady : c.Steady)
    (hattempt : s.attempt f job c t = .noRoom) : u.attempt f job c t = .noRoom := by
  rw [attempt_eq_noRoom_iff h.times] at hattempt
  rw [attempt_eq_noRoom_iff h.times']
  exact fun hroom => hattempt (h.roomAt hsteady hroom)

theorem LessRoom.attempt_found (h : LessRoom f s u) (hunlimited : u.IsUnlimited job)
    (hproper : c.Proper) (hattempt : s.attempt f job c t = .found resources)
    (hopen : ∀ o t', (commitmentOf f job c t resources).placement.Holds o t' →
      u.timeline.Free o t') : u.attempt f job c t = .found resources := by
  have hend := windowEnd_of_attempt hattempt
  rw [h.times.horizon] at hend
  have hpick := h.pick?_again hproper (pick?_of_attempt hattempt) fun o ho t' hfirst hlast =>
    hopen o t' ⟨ho, hfirst, hlast⟩
  have hroom : f.RoomAt u.timeline c t := ⟨hend, by rw [hpick]; rfl⟩
  rcases attempt_of_unlimited (c := c) (t := t) hunlimited h.times' with
    hnone | ⟨_, r, hpick', hfound⟩
  · exact absurd hroom ((attempt_eq_noRoom_iff h.times').1 hnone)
  · rw [hpick] at hpick'
    rw [hfound, Option.some.inj hpick']

/-- With less room the first second at which a candidate fits comes no sooner. -/
theorem LessRoom.later {fit fit' : Fit} (h : LessRoom f s u) (hsteady : c.Steady)
    (hfit : Earliest f s.timeline c fit) (hfit' : Earliest f u.timeline c fit')
    (hfound : fit' = .found t resources) : ∃ t' r', fit = .found t' r' ∧ t' ≤ t := by
  cases hfit' with
  | nowhere => cases hfound
  | first hfits' =>
      cases hfound
      have hfits := h.fits hsteady hfits'
      cases hfit with
      | nowhere hnone => exact absurd hfits (hnone t)
      | first _ _ hleast => exact ⟨_, _, rfl, hleast t hfits⟩

/-- It is the same second if all that was chosen there is still free. -/
theorem LessRoom.again {fit : Fit} (h : LessRoom f s u) (hclock : Time.earliest ≤ f.now)
    (hsteady : c.Steady) (hproper : c.Proper) (hwalltime : 0 < c.walltime)
    (hfit : Earliest f s.timeline c (.found t resources)) (hfit' : Earliest f u.timeline c fit)
    (hopen : ∀ o t', (commitmentOf f job c t resources).placement.Holds o t' →
      u.timeline.Free o t') : fit = .found t resources := by
  cases hfit with
  | first hfits hpick hleast =>
      have hheld := Frame.heldOnTimeline_eq (f := f) (hclock.trans hfits.notBefore) hwalltime hfits.ends
      have hpick' := h.pick?_again hproper hpick fun o ho t' hfirst hlast =>
        hopen o t' ⟨ho, hfirst, by rw [← hheld] at hlast; exact hlast⟩
      have hagain : f.Fits u.timeline c t := ⟨hfits.notBefore, hfits.ends, by rw [hpick']; rfl⟩
      cases hfit' with
      | nowhere hnone => exact absurd hagain (hnone t)
      | @first t' r hfits' hpick'' hleast' =>
          obtain rfl : t' = t := le_antisymm (hleast' t hagain) (hleast t' (h.fits hsteady hfits'))
          rw [hpick'] at hpick''
          rw [Option.some.inj hpick'']

end Unlimited

/-- Less room leaves a proposal as it is, if the place proposed is still free. -/
theorem LessRoom.proposal?_eq (h : LessRoom f s u) (hclock : Time.earliest ≤ f.now)
    (hunlimited : s.IsUnlimited job) (hunlimited' : u.IsUnlimited job)
    (hsteady : ∀ e ∈ candidatesOf f.catalog job, e.2.Steady)
    (hopen : ∀ p, proposal? f s job = some p → ∀ o t,
      (p.commitment f job).placement.Holds o t → u.timeline.Free o t) :
    proposal? f u job = proposal? f s job := by
  have hproper : ∀ e ∈ candidatesOf f.catalog job, e.2.Proper := fun e he =>
    Catalog.proper_candidate (mem_candidatesOf.1 he).2
  cases hpolicy : f.config.policy with
  | fifo =>
      simp only [proposal?, hpolicy] at hopen ⊢
      have hsame : firstFitting (u.attempt f job · f.now) (candidatesOf f.catalog job) .notEnough =
          firstFitting (s.attempt f job · f.now) (candidatesOf f.catalog job) .notEnough := by
        refine firstFitting_eq (fun e he => h.attempt_noRoom (hsteady e he)) ?_ ?_
        · intro e _ d hquota
          rcases attempt_of_unlimited (c := e.2) (t := f.now) hunlimited h.times with
            hnone | ⟨_, r, _, hfound⟩
          · exact absurd (hnone.symm.trans hquota) nofun
          · exact absurd (hfound.symm.trans hquota) nofun
        · intro c r hfitting
          obtain ⟨⟨e, he, rfl⟩, hfound⟩ := firstFitting_found hfitting
          have hplace := hopen ⟨e.2, f.now, r⟩ (by rw [hfitting]; rfl)
          exact h.attempt_found hunlimited' (hproper e he) hfound hplace
      rw [hsame]
  | backfill =>
      simp only [proposal?, hpolicy] at hopen ⊢
      have hearliest : ∀ e ∈ candidatesOf f.catalog job,
          Earliest f s.timeline e.2 (s.freshFit f job e.2) := fun _ =>
        earliest_of_mem_candidatesOf hclock h.times hunlimited hsteady
      have hearliest' : ∀ e ∈ candidatesOf f.catalog job,
          Earliest f u.timeline e.2 (u.freshFit f job e.2) := fun _ =>
        earliest_of_mem_candidatesOf hclock h.times' hunlimited' hsteady
      have hchosen : Chosen (s.freshFit f job) (candidatesOf f.catalog job) none
          (soonest (s.freshFit f job) (candidatesOf f.catalog job) none none).1 :=
        soonest_chosen (candidatesOf f.catalog job) none none
      refine hchosen.unique (soonest_chosen (candidatesOf f.catalog job) none none) ?_ ?_
      · intro e he t r hfound
        obtain ⟨t', r', hfound', hle⟩ :=
          h.later (hsteady e he) (hearliest e he) (hearliest' e he) hfound
        exact ⟨t', r', hfound', Frame.windowEnd_mono e.2.walltime hle⟩
      · intro p hp
        rcases hchosen with ⟨hnone, _⟩ | ⟨front, e, back, q, hsplit, hfirst, _, hq⟩
        · rw [hp] at hnone
          cases hnone
        · rw [hp] at hq
          cases hq
          have he : e ∈ candidatesOf f.catalog job := by simp [hsplit]
          have hplace := hopen p hp
          simp only [Proposal.commitment, hfirst.candidate] at hplace ⊢
          exact h.again hclock (hsteady e he) (hproper e he) (walltime_pos_of_mem_candidatesOf he)
            (hfirst.found ▸ hearliest e he) (hearliest' e he) hplace

end Stability

end ClusterPlan.PassState
