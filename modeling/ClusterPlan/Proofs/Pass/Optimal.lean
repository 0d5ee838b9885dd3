import ClusterPlan.Proofs.Pass.Accounts
import ClusterPlan.Proofs.Pass.Knowledge
import ClusterPlan.Proofs.Pass.Launching

/-!
Backfill finds the earliest end. For a job that no quota restricts, the place found for an alternative
is the first second at which it fits, borders of the timeline or not, and of all its alternatives the
job gets the one that ends first, of equal ends the first declared.
-/

namespace ClusterPlan

/-- A candidate fits at a second: it ends by the horizon, and it can be chosen from what is free up
to the end of its security time. -/
structure Frame.Fits (f : Frame) (tl : Timeline) (c : Candidate) (t : Int) : Prop where
  notBefore : f.now ≤ t
  ends : t + c.walltime - 1 ≤ f.horizon
  selectable : (c.pick? (tl.freeOver t (min (t + c.walltime - 1 + f.security) f.horizon))).isSome

namespace Frame

variable {f : Frame} {tl : Timeline} {c : Candidate} {t : Int}

section Clock

variable (hnow : Time.earliest ≤ t) (hwalltime : 0 < c.walltime)
include hnow hwalltime

/-- A window that ends on the timeline ends before the bounds of 64-bit time. -/
theorem windowEnd_eq (hends : t + c.walltime - 1 ≤ f.horizon) :
    Time.windowEnd t c.walltime = t + c.walltime - 1 := by
  simp only [Time.windowEnd, Time.later, horizon, Time.earliest, Time.latest, Time.lastInstant,
    Number.leastInt, Number.greatestInt] at *
  omega

theorem windowEnd_le_horizon_iff :
    Time.windowEnd t c.walltime ≤ f.horizon ↔ t + c.walltime - 1 ≤ f.horizon := by
  simp only [Time.windowEnd, Time.later, horizon, Time.earliest, Time.latest, Time.lastInstant,
    Number.leastInt, Number.greatestInt] at *
  omega

theorem heldOnTimeline_eq (hends : t + c.walltime - 1 ≤ f.horizon) :
    f.heldOnTimeline t c.walltime = min (t + c.walltime - 1 + f.security) f.horizon := by
  have hsecurity : 0 ≤ f.security := Int.le_max_right _ _
  rw [heldOnTimeline, heldUntil, windowEnd_eq hnow hwalltime hends]
  simp only [Time.later, horizon, Time.earliest, Time.latest, Time.lastInstant, Number.leastInt,
    Number.greatestInt] at *
  omega

end Clock

theorem fits_iff_roomAt (hclock : Time.earliest ≤ f.now) (hwalltime : 0 < c.walltime)
    (hnow : f.now ≤ t) : f.Fits tl c t ↔ f.RoomAt tl c t := by
  have hends := windowEnd_le_horizon_iff (f := f) (hclock.trans hnow) hwalltime
  have hheld := fun h => heldOnTimeline_eq (f := f) (hclock.trans hnow) hwalltime h
  constructor
  · intro h
    exact ⟨hends.2 h.ends, by rw [hheld h.ends]; exact h.selectable⟩
  · rintro ⟨hend, hpick⟩
    exact ⟨hnow, hends.1 hend, by rw [← hheld (hends.1 hend)]; exact hpick⟩

/-- A candidate can start at `t`: it ends by the horizon, it can be chosen from what is free up to the
end of its security time, and the quotas allow what is chosen. -/
structure StartsAt (f : Frame) (s : PassState) (job : Job) (c : Candidate) (t : Int)
    (resources : OrdinalSet) : Prop where
  ends : t + c.walltime - 1 ≤ f.horizon
  chosen : c.pick? (s.timeline.freeOver t
    (min (t + c.walltime - 1 + f.security) f.horizon)) = some resources
  allowed : job.isWithoutQuotas = true ∨ s.ledger.refusal? ⟨s.ledger.claimant job, resources.card,
    t, min (t + c.walltime - 1 + f.security) f.horizon⟩ = none

end Frame

namespace PassState

variable {f : Frame} {s s' : PassState} {job : Job} {c : Candidate} {t : Int}

/-- Attempts find what can start. -/
theorem attempt_found_iff {resources : OrdinalSet} (ht : Time.earliest ≤ t)
    (hs : f.Times s.timeline) (hwalltime : 0 < c.walltime) :
    s.attempt f job c t = .found resources ↔ f.StartsAt s job c t resources := by
  have hends := Frame.windowEnd_le_horizon_iff (f := f) ht hwalltime
  constructor
  · intro h
    have hend : t + c.walltime - 1 ≤ f.horizon := hends.1 (hs.horizon ▸ windowEnd_of_attempt h)
    have hheld := Frame.heldOnTimeline_eq ht hwalltime hend
    refine ⟨hend, hheld ▸ pick?_of_attempt h, ?_⟩
    cases hquota : job.isWithoutQuotas with
    | true => exact Or.inl rfl
    | false => exact Or.inr (hheld ▸ refusal?_of_attempt h hquota)
  · intro h
    have hheld := Frame.heldOnTimeline_eq ht hwalltime h.ends
    have hend : ¬ s.timeline.horizon < Time.windowEnd t c.walltime := by
      rw [hs.horizon]
      exact not_lt.2 (hends.2 h.ends)
    simp only [attempt, hend, if_false, hheld, h.chosen]
    rcases h.allowed with hquota | hallowed
    · rw [if_pos hquota]
    · rw [hallowed]
      split <;> rfl

section Unlimited

theorem Step.rules {task : Task} (h : Step f s s' task) : s'.ledger.rules = s.ledger.rules := by
  rcases h.cases_placements with ⟨d, hd⟩ | ⟨j, a, hexpires⟩ | hkeeps
  · rw [hd.ledger]
    simp only [claimStanding]
    split <;> rfl
  · rw [hexpires.ledger]
    simp only [abandon]
    split <;> rfl
  · rw [hkeeps.ledger]

theorem rules_run (f : Frame) (tasks : List Task) (s : PassState) :
    (tasks.foldl (perform f) s).ledger.rules = s.ledger.rules := by
  induction tasks generalizing s with
  | nil => rfl
  | cons task rest ih => exact (ih _).trans (perform_step f s task).rules

/-- No quota restricts the job. -/
def IsUnlimited (s : PassState) (job : Job) : Prop :=
  s.ledger.rules = [] ∨ job.isWithoutQuotas = true

theorem refusal?_of_no_rules {l : Ledger} (h : l.rules = []) (claim : Claim) :
    l.refusal? claim = none := by
  simp [Ledger.refusal?, Ledger.enforced, Ledger.matching, h]

theorem attempt_of_unlimited (h : s.IsUnlimited job) (hs : f.Times s.timeline) :
    s.attempt f job c t = .noRoom ∨ f.RoomAt s.timeline c t ∧ ∃ resources,
      c.pick? (s.timeline.freeOver t (f.heldOnTimeline t c.walltime)) = some resources ∧
        s.attempt f job c t = .found resources := by
  cases hattempt : s.attempt f job c t with
  | noRoom => exact Or.inl rfl
  | found resources =>
      have hroom : f.RoomAt s.timeline c t := by
        by_contra hnot
        rw [(attempt_eq_noRoom_iff hs).2 hnot] at hattempt
        cases hattempt
      exact Or.inr ⟨hroom, resources, pick?_of_attempt hattempt, rfl⟩
  | overQuota d =>
      exfalso
      simp only [attempt] at hattempt
      split at hattempt
      · cases hattempt
      · split at hattempt
        · cases hattempt
        · split at hattempt
          · cases hattempt
          · rename_i hquota
            rw [refusal?_of_no_rules (h.resolve_right hquota)] at hattempt
            cases hattempt

/-- What a search without quotas has to find: the first second at which the candidate fits, with the
resources it picks there, or nothing if it fits nowhere. -/
inductive Earliest (f : Frame) (tl : Timeline) (c : Candidate) : Fit → Prop where
  | nowhere : (∀ t, ¬ f.Fits tl c t) → Earliest f tl c .noRoom
  | first {t : Int} {resources : OrdinalSet} :
      f.Fits tl c t →
      c.pick? (tl.freeOver t (min (t + c.walltime - 1 + f.security) f.horizon)) = some resources →
      (∀ u, f.Fits tl c u → t ≤ u) → Earliest f tl c (.found t resources)

theorem freshFit_earliest (h : s.IsUnlimited job) (hclock : Time.earliest ≤ f.now)
    (hs : f.Times s.timeline) (hsteady : c.Steady) (hwalltime : 0 < c.walltime) :
    Earliest f s.timeline c (s.freshFit f job c) := by
  have hfits : ∀ {t}, f.now ≤ t → (f.Fits s.timeline c t ↔ f.RoomAt s.timeline c t) :=
    Frame.fits_iff_roomAt hclock hwalltime
  have hmem : ∀ u, u ∈ s.roomy f job c (s.startsSince c f.now) ↔
      u ∈ s.timeline.startsFrom f.now ∧ f.RoomAt s.timeline c u :=
    fun u => mem_roomy_startsSince hs f.now
  have hascending : (s.roomy f job c (s.startsSince c f.now)).Pairwise (· < ·) :=
    roomy_startsSince_ascending hs f.now
  -- Room at a second is room at a border before it, and that is one of the starts tried.
  have hborder : ∀ u, f.Fits s.timeline c u →
      ∃ b ≤ u, b ∈ s.roomy f job c (s.startsSince c f.now) := by
    intro u hu
    obtain ⟨b, hb, hroomb⟩ := Frame.exists_lastStart_of_roomAt hs hsteady hwalltime hu.notBefore
      ((hfits hu.notBefore).1 hu)
    exact ⟨b, hb.upto, (hmem b).2 ⟨hb.isStart, hroomb⟩⟩
  rw [freshFit, ← searchStarts_roomy]
  cases hroomy : s.roomy f job c (s.startsSince c f.now) with
  | nil =>
      rw [hroomy] at hborder
      refine .nowhere fun u hu => ?_
      obtain ⟨b, _, hb⟩ := hborder u hu
      cases hb
  | cons first rest =>
      rw [hroomy] at hmem hascending hborder
      obtain ⟨hstart, hroom⟩ := (hmem first).1 List.mem_cons_self
      have hnow := Timeline.le_of_mem_startsFrom hs.wellFormed hstart
      have hfirst := (hfits hnow).2 hroom
      rcases attempt_of_unlimited (t := first) h hs with hnone | ⟨_, resources, hpick, hfound⟩
      · exact absurd hroom ((attempt_eq_noRoom_iff hs).1 hnone)
      · simp only [searchStarts, hfound]
        refine .first hfirst ?_ fun u hu => ?_
        · rw [← Frame.heldOnTimeline_eq (hclock.trans hnow) hwalltime hfirst.ends]
          exact hpick
        · obtain ⟨b, hbu, hb⟩ := hborder u hu
          rcases List.mem_cons.1 hb with rfl | hrest
          · exact hbu
          · exact ((List.pairwise_cons.1 hascending).1 b hrest).le.trans hbu

end Unlimited

section Best

variable {fitOf : Candidate → Fit}

/-- The first of the fits that end soonest. -/
structure FirstSoonest (fitOf : Candidate → Fit) (front : List (Alternative × Candidate))
    (e : Alternative × Candidate) (back : List (Alternative × Candidate)) (p : Proposal) : Prop where
  candidate : p.candidate = e.2
  found : fitOf e.2 = .found p.start p.resources
  before : ∀ d ∈ front, ∀ t r, fitOf d.2 = .found t r → p.last < Time.windowEnd t d.2.walltime
  after : ∀ d ∈ back, ∀ t r, fitOf d.2 = .found t r → p.last ≤ Time.windowEnd t d.2.walltime

/-- What a comparison that begins with `best` ends with: either that, if nothing ends sooner, or the
first of the fits that end soonest. -/
def Chosen (fitOf : Candidate → Fit) (candidates : List (Alternative × Candidate))
    (best result : Option Proposal) : Prop :=
  (result = best ∧ ∀ d ∈ candidates, ∀ t r, fitOf d.2 = .found t r →
    ∃ old, best = some old ∧ old.last ≤ Time.windowEnd t d.2.walltime) ∨
  ∃ front e back p, candidates = front ++ e :: back ∧ FirstSoonest fitOf front e back p ∧
    (∀ old, best = some old → p.last < old.last) ∧ result = some p

variable {e : Alternative × Candidate} {rest : List (Alternative × Candidate)}
  {best result : Option Proposal}

/-- A candidate that ends no sooner changes nothing. -/
theorem Chosen.skip (h : Chosen fitOf rest best result)
    (hlater : ∀ t r, fitOf e.2 = .found t r →
      ∃ old, best = some old ∧ old.last ≤ Time.windowEnd t e.2.walltime) :
    Chosen fitOf (e :: rest) best result := by
  rcases h with ⟨hsame, hall⟩ | ⟨front, d, back, p, hrest, hfirst, hless, hresult⟩
  · exact Or.inl ⟨hsame, List.forall_mem_cons.2 ⟨hlater, hall⟩⟩
  · refine Or.inr ⟨e :: front, d, back, p, by rw [hrest, List.cons_append],
      { hfirst with before := List.forall_mem_cons.2 ⟨fun t r hfound => ?_, hfirst.before⟩ }, hless,
      hresult⟩
    obtain ⟨old, hold, hle⟩ := hlater t r hfound
    exact lt_of_lt_of_le (hless old hold) hle

/-- A candidate that ends sooner takes the place of the best so far. -/
theorem Chosen.take {t : Int} {r : OrdinalSet} (hfit : fitOf e.2 = .found t r)
    (h : Chosen fitOf rest (some ⟨e.2, t, r⟩) result)
    (hsooner : ∀ old, best = some old → Time.windowEnd t e.2.walltime < old.last) :
    Chosen fitOf (e :: rest) best result := by
  rcases h with ⟨hsame, hall⟩ | ⟨front, d, back, p, hrest, hfirst, hless, hresult⟩
  · refine Or.inr ⟨[], e, rest, ⟨e.2, t, r⟩, rfl, ⟨rfl, hfit, nofun, fun d hd t' r' hfound => ?_⟩,
      hsooner, hsame⟩
    obtain ⟨old, hold, hle⟩ := hall d hd t' r' hfound
    cases hold
    exact hle
  · have hnew := hless _ rfl
    refine Or.inr ⟨e :: front, d, back, p, by rw [hrest, List.cons_append],
      { hfirst with before := List.forall_mem_cons.2 ⟨fun t' r' hfound => ?_, hfirst.before⟩ },
      fun old hold => hnew.trans (hsooner old hold), hresult⟩
    rw [hfit] at hfound
    cases hfound
    exact hnew

theorem soonest_chosen (candidates : List (Alternative × Candidate)) (best : Option Proposal)
    (hit : Option Dimension) :
    Chosen fitOf candidates best (soonest fitOf candidates best hit).1 := by
  induction candidates generalizing best hit with
  | nil => exact Or.inl ⟨rfl, List.forall_mem_nil _⟩
  | cons e rest ih =>
      obtain ⟨a, c⟩ := e
      cases hfit : fitOf c with
      | noRoom =>
          simp only [soonest, hfit]
          exact (ih best hit).skip (by simp [hfit])
      | overQuota d =>
          simp only [soonest, hfit]
          exact (ih best (some d)).skip (by simp [hfit])
      | found t r =>
          simp only [soonest, hfit]
          cases best with
          | none => exact .take hfit (ih _ hit) fun old hold => by cases hold
          | some old =>
              simp only [Proposal.better]
              split
              · rename_i hsooner
                refine .take hfit (ih _ hit) fun old' hold' => ?_
                cases hold'
                exact hsooner
              · rename_i hlater
                refine (ih _ hit).skip fun t' r' hfound => ⟨old, rfl, ?_⟩
                rw [hfit] at hfound
                cases hfound
                exact not_lt.1 hlater

end Best

section Backfill

/-- The place that backfill has to give a job: no place ends sooner, no alternative declared before
has one that ends as soon, and the resources are those that the candidate picks. -/
structure BestPlace (f : Frame) (tl : Timeline) (job : Job) (c : Candidate) (t : Int)
    (resources : OrdinalSet) : Prop where
  fits : f.Fits tl c t
  picked : c.pick? (tl.freeOver t (min (t + c.walltime - 1 + f.security) f.horizon)) = some resources
  least : ∀ b ∈ job.alternatives, ∀ d u, f.catalog.candidate job.filter b = .ok d →
    f.Fits tl d u → t + c.walltime ≤ u + d.walltime
  first : ∃ front a back, job.alternatives = front ++ a :: back ∧
    f.catalog.candidate job.filter a = .ok c ∧
    ∀ b ∈ front, ∀ d u, f.catalog.candidate job.filter b = .ok d → f.Fits tl d u →
      t + c.walltime < u + d.walltime

/-- What backfill does about a job: it waits if nothing fits, else it gets the best place. -/
def Backfilled (f : Frame) (s s' : PassState) (job : Job) : Prop :=
  (∀ a ∈ job.alternatives, ∀ c t, f.catalog.candidate job.filter a = .ok c →
      ¬ f.Fits s.timeline c t) ∧
    (∃ note, Alike (s.keepWaiting job note) s') ∨
  ∃ c t resources, BestPlace f s.timeline job c t resources ∧
    s'.commitments = s.commitments ++ [commitmentOf f job c t resources]

/-- The candidates in front of one are those of the alternatives in front of its own. -/
theorem front_of_candidatesOf {front back : List (Alternative × Candidate)}
    {e : Alternative × Candidate} (h : candidatesOf f.catalog job = front ++ e :: back) :
    ∃ before a after, job.alternatives = before ++ a :: after ∧
      f.catalog.candidate job.filter a = .ok e.2 ∧
      ∀ b ∈ before, ∀ d, f.catalog.candidate job.filter b = .ok d → (b, d) ∈ front := by
  rw [candidatesOf, List.filterMap_eq_append_iff] at h
  obtain ⟨l₁, l₂, halternatives, hfront, hback⟩ := h
  rw [List.filterMap_eq_cons_iff] at hback
  obtain ⟨skipped, a, after, hl₂, hskipped, ha, _⟩ := hback
  have hcandidate : f.catalog.candidate job.filter a = .ok e.2 := by
    cases hc : f.catalog.candidate job.filter a with
    | error _ => simp [hc] at ha
    | ok found =>
        simp only [hc, Option.some.injEq] at ha
        rw [← ha]
  refine ⟨l₁ ++ skipped, a, after, by rw [halternatives, hl₂, List.append_assoc], hcandidate, ?_⟩
  intro b hb d hd
  rcases List.mem_append.1 hb with hb | hb
  · rw [← hfront, List.mem_filterMap]
    exact ⟨b, hb, by rw [hd]⟩
  · have := hskipped b hb
    simp [hd] at this

theorem walltime_pos_of_mem_candidatesOf {cat : Catalog} {e : Alternative × Candidate}
    (h : e ∈ candidatesOf cat job) : 0 < e.2.walltime := by
  obtain ⟨hpositive, _, _, hwalltime, _⟩ := Catalog.candidate_eq_ok (mem_candidatesOf.1 h).2
  rwa [hwalltime]

section FirstSoonest

variable (hclock : Time.earliest ≤ f.now) (hs : f.Times s.timeline)
  (hunlimited : s.IsUnlimited job) (hsteady : ∀ e ∈ candidatesOf f.catalog job, e.2.Steady)
include hclock hs hunlimited hsteady

theorem earliest_of_mem_candidatesOf {e : Alternative × Candidate}
    (h : e ∈ candidatesOf f.catalog job) :
    Earliest f s.timeline e.2 (s.freshFit f job e.2) :=
  freshFit_earliest hunlimited hclock hs (hsteady e h) (walltime_pos_of_mem_candidatesOf h)

/-- The window that the search found for a candidate ends before any other that fits. -/
theorem exists_found_of_fits {e : Alternative × Candidate} {u : Int}
    (h : e ∈ candidatesOf f.catalog job) (hu : f.Fits s.timeline e.2 u) :
    ∃ t r, s.freshFit f job e.2 = .found t r ∧
      Time.windowEnd t e.2.walltime ≤ u + e.2.walltime - 1 := by
  have hearliest := earliest_of_mem_candidatesOf hclock hs hunlimited hsteady h
  cases hfit : s.freshFit f job e.2 with
  | found t r =>
      rw [hfit] at hearliest
      cases hearliest with
      | first hfits _ hleast =>
          have hle := hleast u hu
          refine ⟨t, r, rfl, ?_⟩
          rw [Frame.windowEnd_eq (hclock.trans hfits.notBefore)
            (walltime_pos_of_mem_candidatesOf h) hfits.ends]
          omega
  | noRoom =>
      rw [hfit] at hearliest
      cases hearliest with
      | nowhere hnone => exact absurd hu (hnone u)
  | overQuota d =>
      rw [hfit] at hearliest
      cases hearliest

theorem bestPlace_of_firstSoonest {front back : List (Alternative × Candidate)}
    {e : Alternative × Candidate} {p : Proposal}
    (hsplit : candidatesOf f.catalog job = front ++ e :: back)
    (hfirst : FirstSoonest (s.freshFit f job) front e back p) :
    BestPlace f s.timeline job p.candidate p.start p.resources := by
  have he : e ∈ candidatesOf f.catalog job := by
    rw [hsplit]
    exact List.mem_append_right _ List.mem_cons_self
  have hearliest := earliest_of_mem_candidatesOf hclock hs hunlimited hsteady he
  rw [hfirst.found] at hearliest
  cases hearliest with
  | first hfits hpick _ =>
      have hlast : p.last = p.start + e.2.walltime - 1 := by
        rw [Proposal.last, hfirst.candidate]
        exact Frame.windowEnd_eq (hclock.trans hfits.notBefore)
          (walltime_pos_of_mem_candidatesOf he) hfits.ends
      obtain ⟨before, a, after, halternatives, ha, hfront⟩ := front_of_candidatesOf hsplit
      rw [hfirst.candidate]
      refine ⟨hfits, hpick, fun b hb d u hd hu => ?_, before, a, after, halternatives, ha,
        fun b hb d u hd hu => ?_⟩
      · have hmem : (b, d) ∈ candidatesOf f.catalog job := mem_candidatesOf.2 ⟨hb, hd⟩
        obtain ⟨t, r, hfound, hle⟩ :=
          exists_found_of_fits hclock hs hunlimited hsteady hmem hu
        have hsoonest : p.last ≤ Time.windowEnd t d.walltime := by
          rw [hsplit, List.mem_append, List.mem_cons] at hmem
          rcases hmem with hmem | hmem | hmem
          · exact (hfirst.before _ hmem t r hfound).le
          · have hsame := hfirst.found
            rw [← hmem, hfound] at hsame
            cases hsame
            rw [Proposal.last, hfirst.candidate, ← hmem]
          · exact hfirst.after _ hmem t r hfound
        dsimp only at hle
        omega
      · have hmem := hfront b hb d hd
        obtain ⟨t, r, hfound, hle⟩ := exists_found_of_fits hclock hs hunlimited hsteady
          (by rw [hsplit]; exact List.mem_append_left _ hmem) hu
        have hsooner := hfirst.before _ hmem t r hfound
        dsimp only at hle hsooner
        omega

end FirstSoonest

theorem settledSoonest_none (s : PassState) (f : Frame) (job : Job) (hit : Option Dimension) :
    ∃ note, s.settledSoonest f job (none, hit) = (s.keepWaiting job note, false) := by
  cases hit <;> exact ⟨_, rfl⟩

theorem settledSoonest_commitments (s : PassState) (f : Frame) (job : Job) (p : Proposal)
    (hit : Option Dimension) :
    (s.settledSoonest f job (some p, hit)).1.commitments =
      s.commitments ++ [commitmentOf f job p.candidate p.start p.resources] := by
  simp only [settledSoonest]
  split
  · rw [(launch_books ..).1]
    rfl
  · rfl

/-- With steady candidates backfill takes the first of the fits that end soonest, as if it remembered
nothing. -/
theorem consider_eq_settledSoonest (hs : Informed f s) (hpolicy : f.config.policy = .backfill)
    (hfree : s.blocker = none) (hsteady : ∀ e ∈ candidatesOf f.catalog job, e.2.Steady)
    (hresolved : candidatesOf f.catalog job ≠ []) :
    ∃ fits, consider f s job = ({ s.asked f job with fits := fits }.settledSoonest f job
      (soonest (s.freshFit f job) (candidatesOf f.catalog job) none none)).1 := by
  obtain ⟨fits, hplace⟩ := placeEarliest_eq (s := s.asked f job) hs.times hs.right
    matches_candidatesOf fun _ => hsteady
  refine ⟨fits, ?_⟩
  rw [consider_eq hs.serves hfree, if_neg (by simpa using hresolved)]
  simp only [place, hpolicy, beq_self_eq_true, Bool.or_true, if_true]
  rw [hplace]
  rfl

/-- With enough known, backfill considers a job as it has to. -/
theorem backfilled_consider (hclock : Time.earliest ≤ f.now) (hs : Informed f s)
    (hpolicy : f.config.policy = .backfill) (hfree : s.blocker = none)
    (hunlimited : s.IsUnlimited job) (hsteady : ∀ e ∈ candidatesOf f.catalog job, e.2.Steady)
    (hresolved : candidatesOf f.catalog job ≠ []) :
    Backfilled f s (consider f s job) job := by
  obtain ⟨fits, hconsider⟩ := consider_eq_settledSoonest hs hpolicy hfree hsteady hresolved
  have hchosen : Chosen (s.freshFit f job) (candidatesOf f.catalog job) none _ :=
    soonest_chosen _ none none
  obtain ⟨best, hit, hsoonest⟩ : ∃ best hit,
      soonest (s.freshFit f job) (candidatesOf f.catalog job) none none = (best, hit) := ⟨_, _, rfl⟩
  rw [hsoonest] at hconsider hchosen
  rw [hconsider]
  rcases hchosen with ⟨rfl, hnone⟩ | ⟨front, e, back, p, hsplit, hfirst, _, rfl⟩
  · refine Or.inl ⟨fun a ha c t hc hfits => ?_, ?_⟩
    · obtain ⟨t', r, hfound, _⟩ := exists_found_of_fits hclock hs.times hunlimited hsteady
        (mem_candidatesOf.2 ⟨ha, hc⟩ : (a, c) ∈ _) hfits
      obtain ⟨_, hold, _⟩ := hnone (a, c) (mem_candidatesOf.2 ⟨ha, hc⟩) t' r hfound
      cases hold
    · obtain ⟨note, hwaits⟩ := settledSoonest_none { s.asked f job with fits := fits } f job hit
      refine ⟨note, ?_⟩
      rw [hwaits]
      constructor <;> rfl
  · exact Or.inr ⟨p.candidate, p.start, p.resources,
      bestPlace_of_firstSoonest hclock hs.times hunlimited hsteady hsplit hfirst,
      settledSoonest_commitments ..⟩

end Backfill

end PassState

/-- When a job has its turn in a backfill pass, it gets the best place there is, if no quota restricts
it and its alternatives have one part each. The report keeps what came of it. -/
theorem backfill_optimal {f : Frame} {uses : List Matcher.Use} {front back : List Task} {job : Job}
    (hapart : Matcher.SnapshotsApart (f.catalog :: uses.map Matcher.Use.catalog))
    (hclock : Time.earliest ≤ f.now) (hpolicy : f.config.policy = .backfill)
    (hagenda : f.agenda = front ++ .consider job :: back)
    (hunlimited : f.config.rules = [] ∨ job.isWithoutQuotas = true)
    (hresolved : ∃ a ∈ job.alternatives, (f.catalog.candidate job.filter a).isOk = true)
    (hsingle : ∀ a ∈ job.alternatives, (f.catalog.candidate job.filter a).isOk = true →
      a.parts.length = 1) :
    let s := front.foldl (PassState.perform f) (PassState.start f (.after uses))
    let s' := PassState.perform f s (.consider job)
    PassState.Backfilled f s s' job ∧
      s'.commitments <+: (f.run (.after uses)).report.commitments ∧
      s'.decisions <+: (f.run (.after uses)).report.decisions := by
  intro s s'
  have hstart := PassState.informed_start (Matcher.ready_after hapart)
  have hblocker : (PassState.start f (Matcher.after uses)).blocker = none :=
    (PassState.memory_start f (Matcher.after uses)).blocker
  have hrules : s.ledger.rules = f.ledger.rules :=
    (PassState.rules_run f front _).trans (PassState.opened_start f _).rules
  have hinformed : PassState.Informed f s := PassState.informed_run front hstart
  have hrun : PassState.finished f (.after uses) = back.foldl (PassState.perform f) s' := by
    rw [PassState.finished, hagenda, List.foldl_append, List.foldl_cons]
  refine ⟨PassState.backfilled_consider hclock hinformed hpolicy
    (PassState.blocker_run hpolicy front hstart hblocker) ?_ ?_ ?_, ?_, ?_⟩
  · refine hunlimited.imp_left fun hnone => ?_
    rw [hrules, Frame.ledger, hnone]
    rfl
  · intro e he
    obtain ⟨ha, hc⟩ := PassState.mem_candidatesOf.1 he
    obtain ⟨_, _, _, _, hparts⟩ := Catalog.candidate_eq_ok hc
    exact Candidate.steady_of_singlePart (hparts.trans (hsingle e.1 ha (by rw [hc]; rfl)))
  · obtain ⟨a, ha, hok⟩ := hresolved
    cases hc : f.catalog.candidate job.filter a with
    | error _ =>
        rw [hc] at hok
        cases hok
    | ok c => exact List.ne_nil_of_mem (PassState.mem_candidatesOf.2 ⟨ha, hc⟩ : (a, c) ∈ _)
  · obtain ⟨new, hnew, _⟩ := PassState.new_commitment_of_run f back s'
      (hinformed.step _).1.times.wellFormed
    exact ⟨new, (hrun ▸ hnew).symm⟩
  · obtain ⟨new, hnew⟩ := PassState.decisions_of_run f back s'
    exact ⟨new, (hrun ▸ hnew).symm⟩

section TwoLengths

/-- A waiting job for one resource, for 60 seconds, or for two, for 30. -/
def shortOnTwo : Job :=
  { exampleJob 5 [] 1 with
    alternatives := [⟨50, 60, [⟨none, [⟨"resource_id", 1⟩]⟩]⟩,
      ⟨51, 30, [⟨none, [⟨"resource_id", 2⟩]⟩]⟩] }

/-- Two resources, the first in use up to 120. -/
def busyFirstFrame : Frame :=
  { twoResourceFrame 9 with
    gantt := [⟨4, 40, 50, 71, [1]⟩]
    active := [{ exampleJob 4 [] 1 with state := .running }]
    waiting := [shortOnTwo] }

/-- The longer alternative could start at once, yet the shorter one ends first. -/
theorem backfill_optimal_shortOnTwo :
    let s := PassState.perform busyFirstFrame (PassState.start busyFirstFrame .empty) .openQueue
    let s' := PassState.perform busyFirstFrame s (.consider shortOnTwo)
    s'.commitments = [⟨shortOnTwo, ⟨150, ⟨51, 121, 30, .ofIds [0, 1]⟩⟩⟩] ∧
      PassState.Backfilled busyFirstFrame s s' shortOnTwo ∧
      s'.commitments <+: (busyFirstFrame.run .empty).report.commitments ∧
      s'.decisions <+: (busyFirstFrame.run .empty).report.decisions := by
  have hagenda : busyFirstFrame.agenda =
      [.openQueue] ++ .consider shortOnTwo :: [.showBestEffort, .openQueue] := by
    cbv
  have hapart := Matcher.snapshotsApart_singleton busyFirstFrame.catalog
  refine ⟨by decide +kernel, @backfill_optimal busyFirstFrame [] _ _ _ hapart (by decide) rfl hagenda
    (Or.inl rfl) ⟨_, List.mem_cons_self, by decide +kernel⟩ ?_⟩
  intro a ha _
  simp only [shortOnTwo, List.mem_cons, List.not_mem_nil, or_false] at ha
  rcases ha with rfl | rfl <;> rfl

end TwoLengths

end ClusterPlan
