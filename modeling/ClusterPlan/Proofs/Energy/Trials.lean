import ClusterPlan.Proofs.Energy.Provision

/-!
Trials for blocked jobs. The absent resources of a trial are woken, so that the job could start as soon
as they are up. What is up already is not remembered: it stays up only if it, or something on its node,
may not rest yet or is held by what is planned.
-/

namespace ClusterPlan

namespace Catalog

variable {c : Catalog} {e : EnergySaving} {needs : EnergyNeeds} {o : Nat}

/-- Something that is up sleeps, unless something up on its node, or it itself, is not restable. -/
theorem not_mem_sleepers_iff (ho : o ∈ c.inState .alive) : o ∉ c.sleepers e needs ↔
    ∃ p ∈ c.inState .alive, (p = o ∨ ∃ n, c.nodeOf? o = some n ∧ c.nodeOf? p = some n) ∧
      p ∉ c.restable e needs := by
  rw [mem_sleepers]
  constructor
  · intro hawake
    by_contra hnone
    push Not at hnone
    exact hawake ⟨hnone o ho (Or.inl rfl), fun n hn p hp hpn => hnone p hp (Or.inr ⟨n, hn, hpn⟩)⟩
  · rintro ⟨p, hp, rfl | ⟨n, hn, hpn⟩, hbusy⟩ ⟨hrest, hnode⟩
    · exact hbusy hrest
    · exact hbusy (hnode n hn p hp hpn)

end Catalog

namespace PassState

variable {f : Frame} {s : PassState} {job : Job} {o : Nat} {t : Int} {trial : OrdinalSet}

/-- The alternatives of a job for which the matcher finds candidates. -/
def answers (s : PassState) (f : Frame) (job : Job) : List (Alternative × Candidate) :=
  matched job (s.matcher.forJob f.catalog job).2

/-- A job that nothing holds up is not placed at its turn, and the trial then finds resources with which
it could start when the absent ones among them are up. -/
structure Wishes (f : Frame) (s : PassState) (job : Job) (trial : OrdinalSet) : Prop where
  unblocked : s.blocker = none
  isMatch : (s.answers f job).isEmpty = false
  waits : (place f job (s.answers f job) (s.asked f job)).2 = false
  found : (place f job (s.answers f job) (s.asked f job)).1.wakeTrial? f job (s.answers f job) =
    some trial

section Wanted

theorem wanted_booked (s : PassState) (f : Frame) (job : Job) (c : Candidate) (start : Int)
    (resources : OrdinalSet) : (s.booked f job c start resources).wanted = s.wanted := by
  obtain ⟨_, _, hbooked⟩ := booked_eq s f job c start resources
  rw [hbooked]

theorem wanted_launch (s : PassState) (job : Job) (c : Candidate) (resources : OrdinalSet) :
    (s.launch job c resources).wanted = s.wanted := by
  simp only [launch]
  cases job.isBestEffort <;> simp only [Bool.false_eq_true, if_false, if_true] <;> split <;> rfl

theorem wanted_placeReservation (f : Frame) (s : PassState) (job : Job) :
    (placeReservation f s job).wanted = s.wanted := by
  simp only [placeReservation]
  split
  · rfl
  · split
    · rfl
    · rename_i start _ _
      rcases placeReserved_cases f job start (s.matcher.forJob f.catalog job).2 .unresolved
        (s.asked f job) with ⟨o, ho⟩ | ⟨c, resources, _, _, hplaced⟩
      · exact (congrArg PassState.wanted ho).trans rfl
      · exact (congrArg PassState.wanted hplaced).trans (wanted_booked ..)

theorem wanted_reviewReservation (f : Frame) (s : PassState) (job : Job) :
    (reviewReservation f s job).wanted = s.wanted := by
  simp only [reviewReservation]
  split
  · exact wanted_placeReservation ..
  · split
    · rfl
    · split
      · rfl
      · simp only [startReservation]
        split
        · split <;> rfl
        · rfl

theorem wanted_place (f : Frame) (job : Job) (candidates : List (Alternative × Candidate))
    (s : PassState) : (place f job candidates s).1.wanted = s.wanted := by
  simp only [place]
  split
  · rcases placeNow_cases f job candidates .notEnough s with ⟨_, _, h⟩ | ⟨_, e, _, _, _, h⟩
    · rw [h]
      rfl
    · rw [h]
      exact (wanted_launch ..).trans (wanted_booked ..)
  · rcases placeEarliest_cases f job candidates s with ⟨_, _, h⟩ | ⟨_, p, _, h⟩
    · rw [h]
      rfl
    · rw [h]
      simp only
      split
      · exact (wanted_launch ..).trans (wanted_booked ..)
      · exact wanted_booked ..

theorem wanted_decideUnmatched (s : PassState) (job : Job) (results : List (Except Error Candidate)) :
    (s.decideUnmatched job results).wanted = s.wanted := by
  simp only [decideUnmatched]
  split <;> rfl

theorem wanted_wishWakeup (job : Job) (candidates : List (Alternative × Candidate))
    (ho : o ∈ s.wanted) : o ∈ (wishWakeup f job candidates s).wanted := by
  simp only [wishWakeup]
  split
  · exact OrdinalSet.mem_union.2 (Or.inl ho)
  · exact ho

/-- What is wished for stays wished for. -/
theorem wanted_perform (task : Task) (ho : o ∈ s.wanted) : o ∈ (perform f s task).wanted := by
  cases task with
  | review job => exact (wanted_reviewReservation f s job).symm ▸ ho
  | reserve job => exact (wanted_placeReservation f s job).symm ▸ ho
  | openQueue | showBestEffort => exact ho
  | consider job =>
      simp only [perform, consider]
      split
      · exact ho
      · split
        · rw [wanted_decideUnmatched]
          exact ho
        · split
          · rw [wanted_place]
            exact ho
          · refine wanted_wishWakeup job _ ?_
            rw [wanted_place]
            exact ho

theorem wanted_run (tasks : List Task) (ho : o ∈ s.wanted) :
    o ∈ (tasks.foldl (perform f) s).wanted := by
  induction tasks generalizing s with
  | nil => exact ho
  | cons task rest ih => exact ih (wanted_perform task ho)

end Wanted

section Trials

/-- What is free at some point of a run was free before. -/
theorem free_of_run (tasks : List Task) (hs : s.timeline.WellFormed)
    (hfree : (tasks.foldl (perform f) s).timeline.Free o t) : s.timeline.Free o t := by
  induction tasks generalizing s with
  | nil => exact hfree
  | cons task rest ih =>
      have hstep := perform_step f s task
      exact hstep.free_of_free hs (ih (hstep.wellFormed hs) hfree)

/-- A search that finds no place leaves the timeline as it is. -/
theorem timeline_place_of_waits (hpolicy : f.config.policy = .fifo)
    (candidates : List (Alternative × Candidate)) (s : PassState)
    (hwaits : (place f job candidates s).2 = false) :
    (place f job candidates s).1.timeline = s.timeline := by
  simp only [place, hpolicy] at hwaits ⊢
  rcases placeNow_cases f job candidates .notEnough s with ⟨_, _, h⟩ | ⟨_, e, _, _, _, h⟩
  · rw [h]
    rfl
  · rw [h] at hwaits
    cases hwaits

/-- The trial makes the job wish for its absent resources. -/
theorem Wishes.wanted (h : Wishes f s job trial) (hpolicy : f.config.policy = .fifo)
    (ho : o ∈ trial) (hwakeable : o ∈ f.wakeable) : o ∈ (perform f s (.consider job)).wanted := by
  have hmatch := h.isMatch
  have hwaits := h.waits
  have hfound := h.found
  have hstrict : (Policy.fifo == Policy.backfill) = false := by decide
  rw [answers] at hmatch
  rw [answers, asked_eq h.unblocked] at hwaits hfound
  simp only [perform, consider, h.unblocked, hmatch, hwaits, hpolicy, hstrict, Bool.or_self,
    Bool.false_eq_true, if_false, wishWakeup, hfound]
  exact OrdinalSet.mem_union.2 (Or.inr (OrdinalSet.mem_inter.2 ⟨ho, hwakeable⟩))

/-- Everything in a trial is free when absent resources can be up. -/
theorem Wishes.free (h : Wishes f s job trial) (hpolicy : f.config.policy = .fifo)
    (hs : s.timeline.WellFormed) (ho : o ∈ trial) :
    s.timeline.origin ≤ f.wakeReady ∧ s.timeline.Free o f.wakeReady := by
  have htimeline := timeline_place_of_waits hpolicy (s.answers f job) (s.asked f job) h.waits
  obtain ⟨e, _, he⟩ := List.exists_of_findSome?_eq_some h.found
  split at he
  · rename_i resources hattempt
    cases he
    have hfree := Candidate.pick?_subset (pick?_of_attempt hattempt) o ho
    rw [htimeline] at hfree
    obtain ⟨horigin, hlast, _, hall⟩ := (Timeline.mem_freeOver hs).1 hfree
    exact ⟨horigin, hall _ (le_refl _) hlast⟩
  · cases he
  · cases he

end Trials

end PassState

namespace Frame

/-- A blocked job of a strict pass for which a trial finds resources, some of them absent. -/
structure Trial (f : Frame) (m : Matcher) (job : Job) (trial : OrdinalSet) : Prop where
  policy : f.config.policy = .fifo
  turn : ∃ front back, f.agenda = front ++ .consider job :: back ∧
    PassState.Wishes f (front.foldl (PassState.perform f) (PassState.start f m)) job trial
  adds : ∃ o ∈ trial, o ∈ f.wakeable

/-- Something that is left holds the resource before the end of the sleep window. -/
def HeldSoon (f : Frame) (e : EnergySaving) (commitments : List Commitment) (o : Nat) : Prop :=
  ∃ id p, f.Left commitments id p ∧ f.now ≤ p.heldUntil ∧
    p.assignment.start ≤ e.sleepWindowEnd f.now f.lead ∧ o ∈ p.assignment.resources

/-- The resource, or one that is up on its node, may not rest yet or is held soon. -/
def StaysUp (f : Frame) (e : EnergySaving) (commitments : List Commitment) (o : Nat) : Prop :=
  ∃ p r, f.catalog.resource? p = some r ∧ r.state = .alive ∧
    (p = o ∨ ∃ n, f.catalog.nodeOf? o = some n ∧ f.catalog.nodeOf? p = some n) ∧
    (e.mayRest f.now r = false ∨ f.HeldSoon e commitments p)

end Frame

/-- What the power orders of a pass mean for a trial. -/
structure Serves (f : Frame) (e : EnergySaving) (commitments : List Commitment) (trial : OrdinalSet)
    (d : EnergyDecision) : Prop where
  /-- All of it is up or is woken. -/
  ready : ∀ o ∈ trial, ∃ r, f.catalog.resource? o = some r ∧
    (r.state = .alive ∨ r.state = .absent ∧ r.id ∈ d.wakeup)
  /-- What is up is left up, just where something else keeps it up. -/
  kept : (∀ o ∈ trial, ∀ r, f.catalog.resource? o = some r → r.state = .alive → r.id ∉ d.sleep) ↔
    ∀ o ∈ trial, o ∈ f.catalog.inState .alive → f.StaysUp e commitments o

namespace PassState

variable {f : Frame} {m : Matcher} {job : Job} {e : EnergySaving} {o : Nat} {r : Resource}
  {trial : OrdinalSet}

theorem mem_busy_iff : o ∈ (energyNeeds f (finished f m) e).busy ↔
    f.HeldSoon e (finished f m).commitments o := by
  simp only [energyNeeds, mem_resourcesOf, decide_eq_true_eq, Frame.HeldSoon]

/-- What is up is ordered to sleep, unless something keeps it up. -/
theorem not_mem_sleep_iff (hr : f.catalog.resource? o = some r) (halive : r.state = .alive) :
    r.id ∉ (f.catalog.energyDecision e (energyNeeds f (finished f m) e)).sleep ↔
      f.StaysUp e (finished f m).commitments o := by
  rw [Catalog.energyDecision, Catalog.id_mem_toIds hr,
    Catalog.not_mem_sleepers_iff (Catalog.mem_inState.2 ⟨r, hr, halive⟩)]
  constructor
  · rintro ⟨p, hp, hnear, hbusy⟩
    obtain ⟨q, hq, hstate⟩ := Catalog.mem_inState.1 hp
    refine ⟨p, q, hq, hstate, hnear, ?_⟩
    rw [or_iff_not_imp_left, Bool.not_eq_false, ← mem_busy_iff]
    intro hrest
    by_contra hfree
    exact hbusy (Catalog.mem_restable.2 ⟨q, hq, hstate, hrest, hfree⟩)
  · rintro ⟨p, q, hq, hstate, hnear, hkept⟩
    refine ⟨p, Catalog.mem_inState.2 ⟨q, hq, hstate⟩, hnear, fun hrestable => ?_⟩
    obtain ⟨q', hq', _, hrest, hfree⟩ := Catalog.mem_restable.1 hrestable
    cases hq.symm.trans hq'
    rcases hkept with hnot | hheld
    · change e.mayRest f.now q = true at hrest
      rw [hnot] at hrest
      cases hrest
    · exact hfree (mem_busy_iff.2 hheld)

/-- Everything in a trial is up, or is absent and wished for to the end. -/
theorem state_of_trial (h : f.Trial m job trial) (henergy : f.config.energy = some e)
    (ho : o ∈ trial) : ∃ r, f.catalog.resource? o = some r ∧
      (r.state = .alive ∨
        r.state = .absent ∧ o ∈ (energyNeeds f (finished f m) e).wanted) := by
  obtain ⟨front, back, hagenda, hwishes⟩ := h.turn
  -- What is free at the turn was so at the start, where free means that no closed window is in the way.
  have htimes := times_run front (times_start f m)
  obtain ⟨horigin, hfree⟩ := hwishes.free h.policy htimes.wellFormed ho
  rw [htimes.origin] at horigin
  have hstart := free_of_run front (times_start f m).wellFormed hfree
  obtain ⟨r, hr, hdead, hopen⟩ := openAt_of_free hstart
  have hhorizon : f.wakeReady ≤ f.horizon := (((loaded_start f m).free o _).1 hstart).1.2.1
  refine ⟨r, hr, ?_⟩
  cases hstate : r.state with
  | dead => exact absurd hstate hdead
  | alive => exact Or.inl rfl
  | suspected =>
      refine absurd ?_ (Frame.not_closed_to_the_end horigin hhorizon hopen)
      simp [Frame.closedWindows, hstate]
  | absent =>
      have hwakeable : o ∈ f.wakeable := by
        rw [Frame.wakeable, henergy]
        exact Catalog.mem_inState.2 ⟨r, hr, hstate⟩
      have hwanted : o ∈ (finished f m).wanted := by
        rw [finished, hagenda, List.foldl_append, List.foldl_cons]
        exact wanted_run back (hwishes.wanted h.policy ho hwakeable)
      exact Or.inr ⟨rfl, OrdinalSet.mem_union.2 (Or.inl hwanted)⟩

end PassState

open PassState in
/-- A trial is served by the wake-ups, and is not undone just where all that is up of it stays up for
another reason. -/
theorem serves_of_trial {f : Frame} {m : Matcher} {job : Job} {trial : OrdinalSet} {e : EnergySaving}
    {d : EnergyDecision} (h : f.Trial m job trial) (henergy : f.config.energy = some e)
    (hd : (f.run m).report.energy = some d) : Serves f e (f.run m).report.commitments trial d := by
  obtain rfl := energy_eq henergy hd
  constructor
  · intro o ho
    obtain ⟨r, hr, halive | ⟨habsent, hwanted⟩⟩ := state_of_trial h henergy ho
    · exact ⟨r, hr, Or.inl halive⟩
    · exact ⟨r, hr, Or.inr ⟨habsent, Catalog.mem_wakeup_of_wanted hr habsent hwanted⟩⟩
  · constructor
    · intro hawake o ho halive
      obtain ⟨r, hr, hstate⟩ := Catalog.mem_inState.1 halive
      exact (not_mem_sleep_iff hr hstate).1 (hawake o ho r hr hstate)
    · intro hkept o ho r hr hstate
      exact (not_mem_sleep_iff hr hstate).2 (hkept o ho (Catalog.mem_inState.2 ⟨r, hr, hstate⟩))

section Blocked

/-- One resource that is up and one that is absent, and a job that needs both. -/
def blockedFrame (lastJobEnd : Option Int) : Frame :=
  { twoResourceFrame 9 with
    catalog :=
      ⟨1, [⟨1, .alive, none, lastJobEnd, []⟩, ⟨2, .absent, none, none, []⟩],
        show [(1 : Int), 2].Nodup by decide⟩
    gantt := []
    active := []
    waiting := [exampleJob 1 [] 2]
    wakeLead := 30
    config :=
      { Config.default with
        securityTime := 0
        policy := .fifo
        energy := some ⟨600, 60, 30⟩ } }

theorem agenda_blockedFrame (lastJobEnd : Option Int) :
    (blockedFrame lastJobEnd).agenda =
      [.openQueue, .consider (exampleJob 1 [] 2), .showBestEffort, .openQueue] := by
  cbv

theorem trial_blockedFrame {lastJobEnd : Option Int} (h : lastJobEnd = none ∨ lastJobEnd = some 90) :
    (blockedFrame lastJobEnd).Trial .empty (exampleJob 1 [] 2) (.ofIds [0, 1]) := by
  rcases h with rfl | rfl <;>
  exact
    { policy := rfl
      turn := ⟨[.openQueue], _, agenda_blockedFrame _, by decide +kernel, by decide +kernel,
        by decide +kernel, by decide +kernel⟩
      adds := ⟨1, by decide +kernel, by decide +kernel⟩ }

/-- A resource that has been used of late stays up for the job. -/
theorem serves_of_trial_blocked :
    (blockedFrame (some 90)).Trial .empty (exampleJob 1 [] 2) (.ofIds [0, 1]) ∧
      (blockedFrame (some 90)).config.energy = some ⟨600, 60, 30⟩ ∧
      ∃ d, ((blockedFrame (some 90)).run .empty).report.energy = some d ∧
        d.sleep = [] ∧ d.wakeup = [2] ∧
        Serves (blockedFrame (some 90)) ⟨600, 60, 30⟩
          ((blockedFrame (some 90)).run .empty).report.commitments (.ofIds [0, 1]) d := by
  have htrial := trial_blockedFrame (Or.inr rfl)
  refine ⟨htrial, rfl, _, rfl, ?_, ?_, serves_of_trial htrial rfl rfl⟩ <;>
  · simp only [PassState.finished, agenda_blockedFrame]
    decide +kernel

/-- One that has been idle is put to sleep while the other is woken. -/
theorem not_kept_blocked :
    ¬ ∀ (f : Frame) (m : Matcher) (job : Job) (trial : OrdinalSet) (e : EnergySaving)
      (d : EnergyDecision), f.Trial m job trial → f.config.energy = some e →
      (f.run m).report.energy = some d →
      ∀ o ∈ trial, ∀ r, f.catalog.resource? o = some r → r.state = .alive → r.id ∉ d.sleep := by
  intro h
  have htrial := trial_blockedFrame (Or.inl rfl)
  refine h _ _ _ _ ⟨600, 60, 30⟩ _ htrial rfl rfl 0 (by decide +kernel)
    ⟨1, .alive, none, none, []⟩ rfl rfl ?_
  simp only [PassState.finished, agenda_blockedFrame]
  decide +kernel

end Blocked

end ClusterPlan
