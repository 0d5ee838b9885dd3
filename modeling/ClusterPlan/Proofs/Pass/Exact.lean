import ClusterPlan.Proofs.Pass.Reached

/-!
Where a reservation goes: to the start that it asks for, with the first of its alternatives that can be
had there, or nowhere. What can be had is told from the catalog, the timeline and the ledger alone.
-/

namespace ClusterPlan

namespace Frame

variable {f : Frame} {s : PassState} {job : Job} {start : Int}

/-- An alternative can be had at `start` with these resources: it resolves to a candidate of the catalog
that can start there. -/
def GrantableAt (f : Frame) (s : PassState) (job : Job) (a : Alternative) (start : Int)
    (resources : OrdinalSet) : Prop :=
  ∃ c, f.catalog.candidate job.filter a = .ok c ∧ f.StartsAt s job c start resources

/-- The job asks for a start that has not passed, and some alternative can be had there. -/
def Grantable (f : Frame) (s : PassState) (job : Job) : Prop :=
  ∃ start, job.requestedStart = some start ∧ f.now ≤ start ∧
    ∃ a ∈ job.alternatives, ∃ resources, f.GrantableAt s job a start resources

/-- The commitment of an alternative at its start. It holds the resources through the security time, but
not beyond the horizon. -/
def grantOf (f : Frame) (job : Job) (a : Alternative) (start : Int) (resources : OrdinalSet) :
    Commitment where
  job := job
  placement :=
    { heldUntil := min (start + a.walltime - 1 + f.security) f.horizon
      assignment := ⟨a.id, start, a.walltime, resources⟩ }

end Frame

namespace PassState

variable {f : Frame} {s s' : PassState} {job : Job} {start : Int} {d : Decision}

/-- The first declared alternative that can be had is committed at exactly the requested start. -/
structure Granted (f : Frame) (s s' : PassState) (job : Job) (d : Decision) (start : Int)
    (before after : List Alternative) (a : Alternative) (resources : OrdinalSet) : Prop where
  requested : job.requestedStart = some start
  declared : job.alternatives = before ++ a :: after
  grantable : f.GrantableAt s job a start resources
  first : ∀ b ∈ before, ∀ r, ¬ f.GrantableAt s job b start r
  committed : Commits f s s' (.reserve job) (f.grantOf job a start resources)
  state : d.state = .waiting
  reservation : d.reservation = .scheduled
  assignment : d.assignment = some ⟨a.id, start, a.walltime, resources⟩

structure Refused (f : Frame) (s s' : PassState) (job : Job) (d : Decision) : Prop where
  outcome : d.outcome = .error
  state : d.state = .error
  reservation : d.reservation = job.reservation
  assignment : d.assignment = none
  untouched : Untouched f s s'

/-- One decision about the job: it is scheduled exactly if it is grantable, and refused otherwise. -/
structure Answered (f : Frame) (s s' : PassState) (job : Job) (d : Decision) : Prop where
  decided : s'.decisions = s.decisions ++ [d]
  ofJob : d.job = job.id
  scheduled_iff : d.outcome = .scheduled ↔ f.Grantable s job
  granted : d.outcome = .scheduled →
    ∃ start before after a resources, Granted f s s' job d start before after a resources
  refused : d.outcome ≠ .scheduled → Refused f s s' job d

/-- A refusal answers a job that cannot be granted. -/
theorem answered_of_refused {note : Note} (hnot : ¬ f.Grantable s job)
    (h : Alike (s.refuse job note) s') : ∃ d, Answered f s s' job d := by
  have hno : Outcome.error ≠ Outcome.scheduled := by decide
  exact
    ⟨_,
      { decided := h.decisions
        ofJob := rfl
        scheduled_iff := iff_of_false hno hnot
        granted := fun hscheduled => absurd hscheduled hno
        refused := fun _ => ⟨rfl, rfl, rfl, rfl, untouched_of_decided h⟩ }⟩

section Alternatives

variable {a : Alternative} {c : Candidate} (resources : OrdinalSet)
  (hclock : Time.earliest ≤ start) (hc : f.catalog.candidate job.filter a = .ok c)
include hclock hc

/-- What the catalog has for an alternative is found by an attempt where the alternative can be had. -/
theorem attempt_found_iff_grantableAt (hs : f.Times s.timeline) :
    s.attempt f job c start = .found resources ↔ f.GrantableAt s job a start resources := by
  obtain ⟨hpositive, _, _, hwalltime, _⟩ := Catalog.candidate_eq_ok hc
  rw [attempt_found_iff hclock hs (hwalltime ▸ hpositive)]
  constructor
  · exact fun h => ⟨c, hc, h⟩
  · rintro ⟨c', hc', h⟩
    rw [hc] at hc'
    cases hc'
    exact h

/-- A booking at the start of an alternative makes the commitment of that alternative. -/
theorem commitmentOf_eq_grantOf (hends : start + c.walltime - 1 ≤ f.horizon) :
    commitmentOf f job c start resources = f.grantOf job a start resources := by
  obtain ⟨hpositive, _, hid, hwalltime, _⟩ := Catalog.candidate_eq_ok hc
  rw [commitmentOf, Frame.grantOf,
    Frame.heldOnTimeline_eq hclock (hwalltime ▸ hpositive) hends, hid, hwalltime]

end Alternatives

/-- The alternatives whose results stand before and after one of them. -/
theorem alternatives_of_results {catalog : Catalog} {before after : List (Except Error Candidate)}
    {c : Candidate}
    (h : job.alternatives.map (catalog.candidate job.filter) = before ++ .ok c :: after) :
    ∃ front a back, job.alternatives = front ++ a :: back ∧
      catalog.candidate job.filter a = .ok c ∧
      before = front.map (catalog.candidate job.filter) := by
  obtain ⟨front, rest, halternatives, hfront, hrest⟩ := List.map_eq_append_iff.1 h
  obtain ⟨a, back, rfl, ha, _⟩ := List.map_eq_cons_iff.1 hrest
  exact ⟨front, a, back, halternatives, ha, hfront.symm⟩

/-- A booking of the first alternative that can be had answers the job. -/
theorem answered_of_granted {front back : List Alternative} {a : Alternative} {c : Candidate}
    {resources : OrdinalSet} {note : Note} (hclock : Time.earliest ≤ f.now)
    (hrequested : job.requestedStart = some start) (hnow : f.now ≤ start)
    (halternatives : job.alternatives = front ++ a :: back)
    (hc : f.catalog.candidate job.filter a = .ok c) (hs : f.Times s.timeline)
    (hfinds : s.Finds f job c start resources)
    (hfirst : ∀ b ∈ front, ∀ r, ¬ f.GrantableAt s job b start r)
    (h : Alike ((s.booked f job c start resources).decide job .scheduled .waiting .scheduled note)
      s') : ∃ d, Answered f s s' job d := by
  have hearliest : Time.earliest ≤ start := hclock.trans hnow
  have hgrantable := (attempt_found_iff_grantableAt resources hearliest hc hs).1 hfinds.isFound
  obtain ⟨c', hc', hstarts⟩ := hgrantable
  rw [hc] at hc'
  cases hc'
  have hgrant := commitmentOf_eq_grantOf resources hearliest hc hstarts.ends
  have hcommits : Commits f s s' (.reserve job) (commitmentOf f job c start resources) :=
    commits_of_booked rfl nofun hfinds h.commitments h.timeline h.placements h.reservations h.ledger
      h.claims
  obtain ⟨ledger, claims, hbooked⟩ := booked_eq s f job c start resources
  have hplacement : (s.booked f job c start resources).placements.get? job.id =
      some (f.grantOf job a start resources).placement := by
    rw [hbooked, Dictionary.get?_put, if_pos rfl, hgrant]
  have hdecisions := h.decisions
  rw [decide, decisions_booked, hplacement] at hdecisions
  have hmem : a ∈ job.alternatives := halternatives ▸ List.mem_append_right _ List.mem_cons_self
  refine ⟨_, { decided := hdecisions, ofJob := rfl, scheduled_iff := ?_, granted := ?_, refused := ?_ }⟩
  · exact iff_of_true rfl ⟨start, hrequested, hnow, a, hmem, resources, c, hc, hstarts⟩
  · exact fun _ => ⟨start, front, back, a, resources,
      { requested := hrequested
        declared := halternatives
        grantable := ⟨c, hc, hstarts⟩
        first := hfirst
        committed := hgrant ▸ hcommits
        state := rfl
        reservation := rfl
        assignment := rfl }⟩
  · exact fun hnot => absurd rfl hnot

/-- A start that has not passed is answered by a try of the alternatives there. -/
theorem answered_placeReserved (hclock : Time.earliest ≤ f.now) (hs : Informed f s)
    (hrequested : job.requestedStart = some start) (hnow : f.now ≤ start) :
    ∃ d, Answered f s (placeReserved f job start (s.matcher.forJob f.catalog job).2 .unresolved
      (s.asked f job)) job d := by
  have hearliest : Time.earliest ≤ start := hclock.trans hnow
  have hresults := forJob_eq hs.serves job
  have hasked : Alike s (s.asked f job) := { Alike.refl s with }
  cases placeReserved_tried f job start (s.matcher.forJob f.catalog job).2 .unresolved
    (s.asked f job) with
  | refused hrefused hnone =>
      rw [hrefused]
      refine answered_of_refused ?_ (hasked.decide ..)
      rintro ⟨u, hu, _, a, ha, r, c, hc, hstarts⟩
      rw [hrequested] at hu
      cases hu
      rw [hresults] at hnone
      exact hnone c (hc ▸ List.mem_map_of_mem ha) r
        ((attempt_found_iff_grantableAt r hearliest hc hs.times).2 ⟨c, hc, hstarts⟩)
  | @booked before after c resources hsplit hfound hbefore hplaced =>
      rw [hplaced]
      have hmatch : .ok c ∈ (s.matcher.forJob f.catalog job).2 :=
        hsplit ▸ List.mem_append_right _ List.mem_cons_self
      rw [hresults] at hsplit
      obtain ⟨front, a, back, halternatives, hc, rfl⟩ := alternatives_of_results hsplit
      refine answered_of_granted hclock hrequested hnow halternatives hc hs.times ⟨hmatch, hfound⟩ ?_
        (hasked.booked.decide ..)
      rintro b hb r ⟨c', hc', hstarts⟩
      exact hbefore c' (hc' ▸ List.mem_map_of_mem hb) r
        ((attempt_found_iff_grantableAt r hearliest hc' hs.times).2 ⟨c', hc', hstarts⟩)

/-- In every state of a pass, a job that asks for a reservation is placed at exactly the start it asks for,
with the first declared alternative that can be had there, or it is refused. -/
theorem placeReservation_exact {f : Frame} {uses : List Matcher.Use} {s : PassState}
    (hapart : Matcher.SnapshotsApart (f.catalog :: uses.map Matcher.Use.catalog))
    (hclock : Time.earliest ≤ f.now) (hs : Reached f (.after uses) s) (job : Job) :
    ∃ d, Answered f s (placeReservation f s job) job d := by
  simp only [placeReservation]
  cases hrequested : job.requestedStart with
  | none =>
      refine answered_of_refused ?_ (.refl _)
      rintro ⟨start, hstart, _⟩
      rw [hrequested] at hstart
      cases hstart
  | some start =>
      by_cases hpassed : start < f.now
      · simp only [hpassed, if_true]
        refine answered_of_refused ?_ (.refl _)
        rintro ⟨u, hu, hnow, _⟩
        rw [hrequested] at hu
        cases hu
        omega
      · simp only [hpassed, if_false]
        exact answered_placeReserved hclock (hs.informed (Matcher.ready_after hapart)) hrequested
          (not_lt.1 hpassed)

section ThreeChoices

/-- A reservation for three resources, for two, or for one, at 110. -/
def threeChoices : Job :=
  { exampleJob 7 [] 1 with
    reservation := .toSchedule
    requestedStart := some 110
    alternatives := [⟨70, 10, [⟨none, [⟨"resource_id", 3⟩]⟩]⟩,
      ⟨71, 10, [⟨none, [⟨"resource_id", 2⟩]⟩]⟩, ⟨72, 10, [⟨none, [⟨"resource_id", 1⟩]⟩]⟩] }

/-- There are two resources in all, and one of them is in use at 110. -/
theorem placeReservation_exact_threeChoices :
    let s := perform busyFirstFrame (PassState.start busyFirstFrame .empty) .openQueue
    let s' := placeReservation busyFirstFrame s threeChoices
    Time.earliest ≤ busyFirstFrame.now ∧
      s'.commitments = [⟨threeChoices, ⟨119, ⟨72, 110, 10, .single 1⟩⟩⟩] ∧
      s'.decisions.map Decision.outcome = [.scheduled] ∧
      ∃ d, Answered busyFirstFrame s s' threeChoices d :=
  ⟨by decide, by decide +kernel, by decide +kernel,
    @placeReservation_exact busyFirstFrame [] _ (Matcher.snapshotsApart_singleton _) (by decide)
      (.performed .openQueue .start) threeChoices⟩

end ThreeChoices

end PassState
end ClusterPlan
