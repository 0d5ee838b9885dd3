import ClusterPlan.Proofs.Pass.Bordered
import ClusterPlan.Proofs.Pass.Quotas
import ClusterPlan.Proofs.Pass.Traceless
import ClusterPlan.Proofs.Quota.Earlier

/-!
Quotas do not starve a job. Backfill tries a job at borders of the timeline only, while quotas allow what
they allow at any second. Since claims end at borders, a job that can start at some second can start at
the border before it, unless the choice made there claims more; and where some start is allowed, the
search finds one.
-/

namespace ClusterPlan

namespace Frame

variable {f : Frame} {s : PassState} {job : Job} {c : Candidate} {t b : Int} {resources : OrdinalSet}

/-- What the job claims if it starts at `t`. -/
def claimAt (f : Frame) (s : PassState) (job : Job) (c : Candidate) (t : Int)
    (resources : OrdinalSet) : Claim :=
  ⟨s.ledger.claimant job, resources.card, t, min (t + c.walltime - 1 + f.security) f.horizon⟩

theorem first_le_last_claimAt (hwalltime : 0 < c.walltime) (hends : t + c.walltime - 1 ≤ f.horizon) :
    (f.claimAt s job c t resources).first ≤ (f.claimAt s job c t resources).last := by
  have hsecurity : 0 ≤ f.security := Int.le_max_right _ _
  simp only [claimAt]
  omega

/-- Starting at `b` claims no more than starting at `t`: the choice made there has no more resources and
takes no more resource time, and no claim that the timeline does not show ends in between. -/
structure NoDearer (f : Frame) (s : PassState) (job : Job) (c : Candidate) (t : Int)
    (resources : OrdinalSet) (b : Int) : Prop where
  smaller : ∀ chosen, c.pick? (s.timeline.freeOver b
    (min (b + c.walltime - 1 + f.security) f.horizon)) = some chosen →
      chosen.card ≤ resources.card ∧
        (f.claimAt s job c b chosen).unitSeconds ≤ (f.claimAt s job c t resources).unitSeconds
  shown : ∀ claim, f.Unseen claim → b ≤ claim.last → ¬ claim.last < t

theorem StartsAt.noDearer (h : f.StartsAt s job c t resources) : f.NoDearer s job c t resources t := by
  refine ⟨fun chosen hchosen => ?_, fun _ _ hle hlt => absurd hle (not_le.2 hlt)⟩
  rw [h.chosen, Option.some.injEq] at hchosen
  subst hchosen
  exact ⟨le_rfl, le_rfl⟩

end Frame

namespace PassState

variable {f : Frame} {s s' : PassState} {job : Job} {c : Candidate} {t b : Int}
  {resources : OrdinalSet}

section Earlier

/-- Between the last start worth trying and `t` no claim ends that the timeline shows. -/
theorem settled_of_lastStart (hs : f.Times s.timeline) (hbordered : Bordered f s)
    (hb : s.timeline.LastStart f.now t b) (hhorizon : t ≤ f.horizon)
    (hshown : ∀ claim, f.Unseen claim → b ≤ claim.last → ¬ claim.last < t) :
    s.ledger.Settled b t := by
  intro e he hwindow hlt
  refine Int.not_le.1 fun hle => ?_
  have hnow := Timeline.le_of_mem_startsFrom hs.wellFormed hb.isStart
  rcases hbordered e he hwindow (by omega) (by omega) with hborder | hunseen
  · have hstart : e.2.last + 1 ∈ s.timeline.startsFrom f.now :=
      (Timeline.mem_startsFrom hs.wellFormed).2 (Or.inr ⟨by omega, hborder⟩)
    have := hb.latest _ hstart (by omega)
    omega
  · exact hshown _ hunseen hle hlt

/-- A claim that is accepted at `t` would be accepted at the last start worth trying before. -/
theorem accepted_at_lastStart {chosen : OrdinalSet} (hs : f.Times s.timeline) (hbordered : Bordered f s)
    (hwalltime : 0 < c.walltime) (hends : t + c.walltime - 1 ≤ f.horizon)
    (hb : s.timeline.LastStart f.now t b) (hnoDearer : f.NoDearer s job c t resources b)
    (hchosen : c.pick? (s.timeline.freeOver b
      (min (b + c.walltime - 1 + f.security) f.horizon)) = some chosen)
    (haccepted : s.ledger.refusal? (f.claimAt s job c t resources) = none) :
    s.ledger.refusal? (f.claimAt s job c b chosen) = none := by
  obtain ⟨hunits, hseconds⟩ := hnoDearer.smaller chosen hchosen
  have hupto := hb.upto
  have hprecedes : (f.claimAt s job c b chosen).Precedes (f.claimAt s job c t resources) :=
    { claimant := rfl
      units := hunits
      unitSeconds := hseconds
      first := hupto
      last := by simp only [Frame.claimAt]; omega }
  have hsettled : s.ledger.Settled b t :=
    settled_of_lastStart hs hbordered hb (by omega) hnoDearer.shown
  exact Ledger.accepted_of_precedes hprecedes (Frame.first_le_last_claimAt hwalltime (by omega))
    (Frame.first_le_last_claimAt hwalltime hends) hsettled haccepted

/-- What can start at some second can start at the last start worth trying before it. -/
theorem exists_earlier_start (hclock : Time.earliest ≤ f.now) (hs : f.Times s.timeline)
    (hbordered : Bordered f s) (hsteady : c.Steady) (hwalltime : 0 < c.walltime) (hnow : f.now ≤ t)
    (hstarts : f.StartsAt s job c t resources)
    (hearlier : job.isWithoutQuotas = false →
      ∀ b, s.timeline.LastStart f.now t b → b < t → f.NoDearer s job c t resources b) :
    ∃ b ∈ s.timeline.startsFrom f.now, ∃ chosen, f.StartsAt s job c b chosen := by
  have hfits : f.Fits s.timeline c t := ⟨hnow, hstarts.ends, by rw [hstarts.chosen]; rfl⟩
  obtain ⟨b, hb, hroom⟩ := Frame.exists_lastStart_of_roomAt hs hsteady hwalltime hnow
    ((Frame.fits_iff_roomAt hclock hwalltime hnow).1 hfits)
  have hfitsb := (Frame.fits_iff_roomAt hclock hwalltime
    (Timeline.le_of_mem_startsFrom hs.wellFormed hb.isStart)).2 hroom
  obtain ⟨chosen, hchosen⟩ := Option.isSome_iff_exists.1 hfitsb.selectable
  refine ⟨b, hb.isStart, chosen, hfitsb.ends, hchosen, ?_⟩
  cases hquotas : job.isWithoutQuotas with
  | true => exact Or.inl rfl
  | false =>
      have haccepted := hstarts.allowed.resolve_left (by rw [hquotas]; exact Bool.false_ne_true)
      have hnoDearer : f.NoDearer s job c t resources b := by
        rcases hb.upto.lt_or_eq with hlt | rfl
        · exact hearlier hquotas b hb hlt
        · exact hstarts.noDearer
      exact Or.inr (accepted_at_lastStart hs hbordered hwalltime hstarts.ends hb hnoDearer hchosen
        haccepted)

end Earlier

section Search

theorem searchStarts_of_mem {attemptAt : Int → Attempt} {ts : List Int} (ht : t ∈ ts)
    (hfound : attemptAt t = .found resources) :
    ∃ start found, (searchStarts attemptAt ts).1 = .found start found := by
  induction ts with
  | nil => cases ht
  | cons u rest ih =>
      have hrest : attemptAt u ≠ .found resources → t ∈ rest := fun hu =>
        (List.mem_cons.1 ht).resolve_left fun heq => hu (heq ▸ hfound)
      cases hattempt : attemptAt u with
      | found chosen => exact ⟨u, chosen, by simp only [searchStarts, hattempt]⟩
      | noRoom =>
          simp only [searchStarts, hattempt]
          exact ih (hrest (by rw [hattempt]; exact Attempt.noConfusion))
      | overQuota d =>
          obtain ⟨start, found, hsearch⟩ := ih (hrest (by rw [hattempt]; exact Attempt.noConfusion))
          exact ⟨start, found, by simp only [searchStarts, hattempt, hsearch]⟩

/-- Where a candidate can start somewhere, the search finds a start. -/
theorem exists_freshFit (hclock : Time.earliest ≤ f.now) (hs : f.Times s.timeline)
    (hwalltime : 0 < c.walltime) (hb : b ∈ s.timeline.startsFrom f.now)
    (hstarts : f.StartsAt s job c b resources) :
    ∃ start found, s.freshFit f job c = .found start found := by
  have hnow := Timeline.le_of_mem_startsFrom hs.wellFormed hb
  have hfound := (attempt_found_iff (hclock.trans hnow) hs hwalltime).2 hstarts
  have hroom : f.RoomAt s.timeline c b := by
    by_contra hnone
    rw [(attempt_eq_noRoom_iff hs).2 hnone] at hfound
    cases hfound
  have hroomy : b ∈ s.roomy f job c (s.startsSince c f.now) :=
    (mem_roomy_startsSince hs f.now).2 ⟨hb, hroom⟩
  exact searchStarts_of_mem (List.mem_filter.1 hroomy).1 hfound

end Search

/-- The job gets a place: it is launched or scheduled, and its place is committed. -/
structure Places (s s' : PassState) (job : Job) : Prop where
  decided : ∃ d, s'.decisions = s.decisions ++ [d] ∧ d.job = job.id ∧
    (d.outcome = .toLaunch ∨ d.outcome = .scheduled)
  committed : ∃ p, s'.commitments = s.commitments ++ [⟨job, p⟩]

theorem places_of_committed {p : Placement}
    (h : (consider f s job).commitments = s.commitments ++ [⟨job, p⟩]) :
    Places s (consider f s job) job := by
  obtain ⟨d, hdecided, hjob, houtcome⟩ := (perform_step f s (.consider job)).looked (Or.inr rfl)
  refine ⟨⟨d, hdecided, hjob, ?_⟩, p, h⟩
  rcases houtcome with ⟨-, huntouched⟩ | ⟨hplaced, -⟩
  · have hsame := huntouched.commitments.symm.trans h
    simp at hsame
  · cases houtcome : d.outcome <;> simp_all [Outcome.isPlaced]

/-- Backfill places a job of which some alternative can start at a start worth trying. -/
theorem places_of_startsAt {a : Alternative} (hclock : Time.earliest ≤ f.now) (hs : Informed f s)
    (hpolicy : f.config.policy = .backfill) (hfree : s.blocker = none)
    (hsteady : ∀ e ∈ candidatesOf f.catalog job, e.2.Steady) (he : (a, c) ∈ candidatesOf f.catalog job)
    (hb : b ∈ s.timeline.startsFrom f.now) (hstarts : f.StartsAt s job c b resources) :
    Places s (consider f s job) job := by
  obtain ⟨fits, hconsider⟩ :=
    consider_eq_settledSoonest hs hpolicy hfree hsteady (List.ne_nil_of_mem he)
  obtain ⟨start, found, hfit⟩ :=
    exists_freshFit hclock hs.times (walltime_pos_of_mem_candidatesOf he) hb hstarts
  obtain ⟨best, hit, hsoonest⟩ : ∃ best hit,
      soonest (s.freshFit f job) (candidatesOf f.catalog job) none none = (best, hit) := ⟨_, _, rfl⟩
  have hchosen : Chosen (s.freshFit f job) (candidatesOf f.catalog job) none
      (soonest (s.freshFit f job) (candidatesOf f.catalog job) none none).1 :=
    soonest_chosen _ none none
  rw [hsoonest] at hconsider hchosen
  rcases hchosen with ⟨-, hnone⟩ | ⟨_, _, _, p, _, _, _, rfl⟩
  · obtain ⟨_, hold, _⟩ := hnone (a, c) he start found hfit
    cases hold
  · exact places_of_committed (hconsider ▸ settledSoonest_commitments ..)

end PassState

/-- When a job has its turn in a backfill pass and one of its alternatives can start at some second within
the quotas, it gets a place. If quotas apply to it and no start is tried at that second, the last start
before must claim no more. The report keeps what came of it. -/
theorem placed_of_startable {f : Frame} {uses : List Matcher.Use} {front back : List Task} {job : Job}
    {a : Alternative} {c : Candidate} {t : Int} {resources : OrdinalSet}
    (hapart : Matcher.SnapshotsApart (f.catalog :: uses.map Matcher.Use.catalog))
    (hclock : Time.earliest ≤ f.now) (hpolicy : f.config.policy = .backfill)
    (hagenda : f.agenda = front ++ .consider job :: back)
    (hsingle : ∀ a ∈ job.alternatives, (f.catalog.candidate job.filter a).isOk = true →
      a.parts.length = 1)
    (ha : a ∈ job.alternatives) (hc : f.catalog.candidate job.filter a = .ok c)
    (hnow : f.now ≤ t) :
    let s := front.foldl (PassState.perform f) (PassState.start f (.after uses))
    let s' := PassState.perform f s (.consider job)
    f.StartsAt s job c t resources →
    (job.isWithoutQuotas = false →
      ∀ b, s.timeline.LastStart f.now t b → b < t → f.NoDearer s job c t resources b) →
    PassState.Places s s' job ∧
      s'.commitments <+: (f.run (.after uses)).report.commitments ∧
      s'.decisions <+: (f.run (.after uses)).report.decisions := by
  intro s s' hstarts hearlier
  have hready := Matcher.ready_after hapart
  have hreached : PassState.Reached f (.after uses) s := PassState.Reached.start.run front
  have hinformed := hreached.informed hready
  have hblocker : s.blocker = none :=
    PassState.blocker_run hpolicy front (PassState.informed_start hready)
      (PassState.memory_start f (.after uses)).blocker
  have he : (a, c) ∈ PassState.candidatesOf f.catalog job := PassState.mem_candidatesOf.2 ⟨ha, hc⟩
  have hsteady := PassState.steady_of_singleParts hsingle
  obtain ⟨b, hb, chosen, hstartsb⟩ := PassState.exists_earlier_start hclock hinformed.times
    (hreached.bordered hready) (hsteady _ he) (PassState.walltime_pos_of_mem_candidatesOf he) hnow
    hstarts hearlier
  exact ⟨PassState.places_of_startsAt hclock hinformed hpolicy hblocker hsteady he hb hstartsb,
    PassState.kept_in_report _ hagenda⟩

section Limits

/-- Two resources, the first in use up to 120, and a rule that allows one running job. -/
def oneAtATimeFrame : Frame :=
  { busyFirstFrame with
    waiting := [exampleJob 5 [] 1]
    config :=
      { busyFirstFrame.config with
        rules := [⟨⟨.any, .any, .any, .any⟩, ⟨.unbounded, oneJob, .unbounded⟩⟩] } }

def anyResource : Candidate :=
  ⟨50, 10, [⟨.ofIds [0, 1], [⟨"resource_id", 1, [.single 0, .single 1]⟩]⟩]⟩

/-- The second resource is free at once, but the job has to wait for the end of the other one. It could
start at 130, and is placed at the border before. -/
theorem placed_of_startable_oneAtATime :
    let s := PassState.perform oneAtATimeFrame (PassState.start oneAtATimeFrame .empty) .openQueue
    let s' := PassState.perform oneAtATimeFrame s (.consider (exampleJob 5 [] 1))
    oneAtATimeFrame.StartsAt s (exampleJob 5 [] 1) anyResource 130 (.single 0) ∧
      s.timeline.startsFrom 100 = [100, 121] ∧
      PassState.Places s s' (exampleJob 5 [] 1) ∧
      s'.commitments <+: (oneAtATimeFrame.run .empty).report.commitments ∧
      s'.decisions <+: (oneAtATimeFrame.run .empty).report.decisions := by
  intro s s'
  have hagenda : oneAtATimeFrame.agenda =
      [.openQueue] ++ .consider (exampleJob 5 [] 1) :: [.showBestEffort, .openQueue] := by
    decide +kernel
  have hstarts : oneAtATimeFrame.StartsAt s (exampleJob 5 [] 1) anyResource 130 (.single 0) :=
    ⟨by decide, by decide +kernel, Or.inr (by decide +kernel)⟩
  have hborders : s.timeline.startsFrom 100 = [100, 121] := by decide +kernel
  have hrows : ∀ row ∈ oneAtATimeFrame.rows, 0 ∈ oneAtATimeFrame.rowOrdinals row := by decide +kernel
  have hearlier : ∀ b, s.timeline.LastStart oneAtATimeFrame.now 130 b → b < 130 →
      oneAtATimeFrame.NoDearer s (exampleJob 5 [] 1) anyResource 130 (.single 0) b := by
    intro b hb _
    have hmem : b ∈ [100, 121] := hborders ▸ hb.isStart
    have hlast : 121 ≤ b := hb.latest 121 (hborders ▸ by decide) (by decide)
    obtain rfl : b = 121 := by
      simp only [List.mem_cons, List.not_mem_nil, or_false] at hmem
      omega
    refine ⟨fun chosen hchosen => ?_, fun claim ⟨row, hrow, _, hnone⟩ => absurd (hrows row hrow) (hnone 0)⟩
    have hpick : anyResource.pick? (s.timeline.freeOver 121
        (min (121 + anyResource.walltime - 1 + oneAtATimeFrame.security) oneAtATimeFrame.horizon)) =
        some (.single 0) := by
      decide +kernel
    rw [hpick, Option.some.injEq] at hchosen
    subst hchosen
    exact ⟨le_rfl, by decide +kernel⟩
  have hplaced := @placed_of_startable oneAtATimeFrame [] [.openQueue] _ _ _ anyResource 130 (.single 0)
    (Matcher.snapshotsApart_singleton _) (by decide) rfl hagenda
    (fun a ha _ => by rw [List.mem_singleton.1 ha]; rfl) (List.mem_singleton_self _)
    (by decide +kernel) (by decide) hstarts fun _ => hearlier
  exact ⟨hstarts, hborders, hplaced⟩

/-- A waiting job for a whole node. -/
def wholeNodeJob : Job :=
  { exampleJob 5 [] 1 with alternatives := [⟨50, 10, [⟨none, [⟨"network_address", 1⟩]⟩]⟩] }

/-- A node of two resources, available up to 114, and one of a single resource, up to 115. A rule allows
one resource in use. -/
def shortLivedNodesFrame : Frame :=
  { oneAtATimeFrame with
    catalog :=
      { snapshot := 1
        resources :=
          [⟨1, .alive, some 114, none, [("network_address", "a")]⟩,
            ⟨2, .alive, some 114, none, [("network_address", "a")]⟩,
            ⟨3, .alive, some 115, none, [("network_address", "b")]⟩]
        distinct := by decide }
    gantt := []
    active := []
    waiting := [wholeNodeJob]
    config :=
      { oneAtATimeFrame.config with
        rules := [⟨⟨.any, .any, .any, .any⟩, ⟨.fixed (.ofRatio 1 1), .unbounded, .unbounded⟩⟩] } }

def anyNode : Candidate :=
  ⟨50, 10, [⟨.ofIds [0, 1, 2], [⟨"network_address", 1, [.ofIds [0, 1], .single 2]⟩]⟩]⟩

/-- The first node is one resource too many for the rule. From 106 to 115 the other one would be chosen,
but 106 is no border, and the job waits. -/
theorem waiting_of_startable_between_borders :
    ¬ ∀ (f : Frame) (uses : List Matcher.Use) (front back : List Task) (job : Job) (a : Alternative)
      (c : Candidate) (t : Int) (resources : OrdinalSet),
      Matcher.SnapshotsApart (f.catalog :: uses.map Matcher.Use.catalog) → Time.earliest ≤ f.now →
      f.config.policy = .backfill → f.agenda = front ++ .consider job :: back →
      (∀ a ∈ job.alternatives, (f.catalog.candidate job.filter a).isOk = true → a.parts.length = 1) →
      a ∈ job.alternatives → f.catalog.candidate job.filter a = .ok c → f.now ≤ t →
      f.StartsAt (front.foldl (PassState.perform f) (PassState.start f (.after uses))) job c t resources →
      ∃ d ∈ (f.run (.after uses)).report.decisions, d.job = job.id ∧
        (d.outcome = .toLaunch ∨ d.outcome = .scheduled) := by
  intro h
  have hagenda : shortLivedNodesFrame.agenda =
      [.openQueue] ++ .consider wholeNodeJob :: [.showBestEffort, .openQueue] := by
    decide +kernel
  have houtcomes : (shortLivedNodesFrame.run .empty).report.decisions.map Decision.outcome =
      [.stillWaiting] := by
    simp only [Frame.run, PassState.report, PassState.finished, hagenda]
    decide +kernel
  obtain ⟨d, hd, -, hplaced⟩ := h shortLivedNodesFrame [] [.openQueue] _ wholeNodeJob _ anyNode 106
    (.single 2) (Matcher.snapshotsApart_singleton _) (by decide) rfl hagenda
    (fun a ha _ => by rw [List.mem_singleton.1 ha]; rfl) (List.mem_singleton_self _)
    (by decide +kernel) (by decide) ⟨by decide, by decide +kernel, Or.inr (by decide +kernel)⟩
  have houtcome : d.outcome ∈ [Outcome.stillWaiting] := houtcomes ▸ List.mem_map_of_mem hd
  rcases hplaced with hplaced | hplaced
  · rw [hplaced] at houtcome
    exact absurd houtcome (by decide)
  · rw [hplaced] at houtcome
    exact absurd houtcome (by decide)

end Limits

end ClusterPlan
