import ClusterPlan.Proofs.Matching.Stability
import ClusterPlan.Proofs.Pass.Reached
import ClusterPlan.Proofs.Timeline.Borders

/-!
Where claims end, slots begin. A pass claims and occupies over the same windows, so usage that falls is
seen by the searches, which begin at borders only. The exception are standing rows of which the catalog
knows no resource: they still claim, but take nothing from the timeline.
-/

namespace ClusterPlan

/-- The claim is of a standing row of which the catalog knows no resource. -/
def Frame.Unseen (f : Frame) (claim : Claim) : Prop :=
  ∃ row ∈ f.rows, f.recorded? row = some (row, claim) ∧ ∀ o, o ∉ f.rowOrdinals row

namespace PassState

variable {f : Frame} {m : Matcher} {s s' : PassState} {task : Task} {c : Commitment}

/-- Where a claim ends on the timeline, a slot begins. -/
def Bordered (f : Frame) (s : PassState) : Prop :=
  ∀ e ∈ s.ledger.claims, e.2.first ≤ e.2.last → f.now ≤ e.2.last → e.2.last < f.horizon →
    Timeline.BorderIn s.timeline.slots (e.2.last + 1) ∨ f.Unseen e.2

/-- The second after a window that ends on a timeline is one at which the window cuts it. -/
theorem cuts_after {tl : Timeline} {first last : Int} (hwindow : first ≤ last)
    (horigin : tl.origin ≤ last) (hhorizon : last < tl.horizon) : tl.Cuts first last (last + 1) := by
  simp only [Timeline.Cuts]
  omega

section Loading

/-- A row that claims occupies its resources over the window of its claim. -/
theorem occupation?_of_recorded? {row : GanttRow} {e : GanttRow × Claim}
    (h : f.recorded? row = some e) :
    f.occupation? row = some ⟨e.2.first, e.2.last, f.rowOrdinals row⟩ := by
  obtain ⟨_, claim⟩ := e
  have hclaim := rowClaim?_of_recorded? h
  simp only [Frame.recorded?] at h
  split at h
  · rename_i haside
    simp only [Frame.isRecorded] at haside
    simp only [Frame.rowClaim?, Frame.claim?, Option.bind_eq_some_iff] at hclaim
    obtain ⟨⟨job, last⟩, hstanding, hclaim⟩ := hclaim
    split at hclaim
    · cases hclaim
    · cases hclaim
      rw [Frame.aside?, hstanding, Option.bind_some] at haside
      rw [Frame.occupation?, Frame.occupiedUntil?, hstanding, Option.bind_some]
      split at haside
      · cases haside
      · rename_i hnot
        rw [if_neg hnot, Option.map_some]
  · cases h

theorem bordered_start (f : Frame) (m : Matcher) : Bordered f (start f m) := by
  intro e he hwindow hnow hhorizon
  rw [(opened_start f m).claims] at he
  obtain ⟨entry, hentry, rfl⟩ := List.mem_map.1 he
  obtain ⟨row, hrow, hrecorded⟩ := List.mem_filterMap.1 (List.fst_mem_of_mem_zipIdx hentry)
  by_cases hknown : ∃ o, o ∈ f.rowOrdinals row
  · obtain ⟨o, ho⟩ := hknown
    refine Or.inl ?_
    have hinitial : (initial f m).timeline.WellFormed := Timeline.wellFormed_initial _ _ _
    rw [start, (alike_noticeUnknownQueues f _).timeline, timeline_load,
      Timeline.borderIn_occupyAll hinitial]
    refine Or.inr ⟨_, _, o, ⟨_, List.mem_append_right _ (List.mem_filterMap.2
      ⟨row, hrow, occupation?_of_recorded? hrecorded⟩), rfl, rfl, ho⟩, cuts_after hwindow hnow hhorizon⟩
  · refine Or.inr ⟨row, hrow, ?_, not_exists.1 hknown⟩
    rw [hrecorded, ← row_of_recorded? hrecorded]

end Loading

section Steps

theorem Bordered.of_borders (h : Bordered f s) (hclaims : ∀ e ∈ s'.ledger.claims, e ∈ s.ledger.claims)
    (hborders : ∀ u, Timeline.BorderIn s.timeline.slots u → Timeline.BorderIn s'.timeline.slots u) :
    Bordered f s' := fun e he hwindow hnow hhorizon =>
  (h e (hclaims e he) hwindow hnow hhorizon).imp_left (hborders _)

/-- A pass never commits nothing. -/
theorem Commits.exists_mem (h : Commits f s s' task c) (hs : s.matcher.Serves f.catalog) :
    ∃ o, o ∈ c.placement.assignment.resources := by
  obtain ⟨found, hfinds, -⟩ := h.isFound
  have hmatch := hfinds.isMatch
  rw [forJob_eq hs] at hmatch
  obtain ⟨a, -, hcandidate⟩ := List.mem_map.1 hmatch
  exact Catalog.exists_mem_of_pick? hcandidate (pick?_of_attempt hfinds.isFound)

theorem Commits.bordered (h : Commits f s s' task c) (hs : Informed f s)
    (hrules : s.ledger.rules = f.ledger.rules) (hb : Bordered f s) : Bordered f s' := by
  obtain ⟨o, ho⟩ := h.exists_mem hs.serves
  have hborders : ∀ u, Timeline.BorderIn s.timeline.slots u ∨ s.timeline.Cuts
      c.placement.assignment.start c.placement.heldUntil u →
        Timeline.BorderIn s'.timeline.slots u := fun u hu => by
    rw [h.timeline]
    exact (Timeline.borderIn_occupy hs.times.wellFormed).2 (hu.imp_right fun hcuts => ⟨⟨o, ho⟩, hcuts⟩)
  intro e he hwindow hnow hhorizon
  have hcharges := (h.charges hrules).ledger
  cases hclaim : f.commitmentClaim? c with
  | none =>
      rw [hclaim] at hcharges
      rw [hcharges] at he
      exact (hb e he hwindow hnow hhorizon).imp_left fun hborder => hborders _ (Or.inl hborder)
  | some claim =>
      rw [hclaim] at hcharges
      rw [hcharges] at he
      rcases List.mem_append.1 he with he | he
      · exact (hb e he hwindow hnow hhorizon).imp_left fun hborder => hborders _ (Or.inl hborder)
      · -- The new claim is over the window that is occupied with it.
        obtain rfl := List.mem_singleton.1 he
        refine Or.inl (hborders _ (Or.inr ?_))
        simp only [Frame.commitmentClaim?, Frame.claim?] at hclaim
        split at hclaim
        · cases hclaim
        · cases hclaim
          exact cuts_after hwindow (hs.times.origin ▸ hnow) (hs.times.horizon ▸ hhorizon)

theorem Keeps.borders (h : Keeps s s') (hs : s.timeline.WellFormed) {u : Int}
    (hborder : Timeline.BorderIn s.timeline.slots u) : Timeline.BorderIn s'.timeline.slots u := by
  rcases h.timeline with htimeline | htimeline
  · rwa [htimeline]
  · rw [htimeline, occupyBestEffort_timeline, foldl_occupyPlaced, Timeline.borderIn_occupyAll hs]
    exact Or.inl hborder

theorem Step.bordered (h : Step f s s' task) (hs : Informed f s)
    (hrules : s.ledger.rules = f.ledger.rules) (hb : Bordered f s) : Bordered f s' := by
  rcases h.cases_placements with ⟨c, hcommits⟩ | ⟨job, a, hexpires⟩ | hkeeps
  · exact hcommits.bordered hs hrules hb
  · refine hb.of_borders (fun e he => ?_) fun u hu => hexpires.timeline ▸ hu
    rw [hexpires.ledger, abandon] at he
    split at he
    · exact (List.mem_filter.1 he).1
    · exact he
  · exact hb.of_borders (fun e he => hkeeps.ledger ▸ he) fun u => hkeeps.borders hs.times.wellFormed

theorem Reached.bordered (hready : m.Ready f.catalog) (h : Reached f m s) : Bordered f s := by
  induction h with
  | start => exact bordered_start f m
  | performed task hreached ih =>
      exact (perform_step f _ task).bordered (hreached.informed hready) hreached.backed.rules ih
  | notified n _ ih => exact ih

end Steps

end PassState
end ClusterPlan
