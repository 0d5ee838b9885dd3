import ClusterPlan.Proofs.Pass.Accounts
import ClusterPlan.Proofs.Pass.Exclusion
import ClusterPlan.Proofs.Quota.Order
import ClusterPlan.Proofs.Timeline.Borders

/-!
The order in which a pass takes up what stands before it. Closed windows may come one resource at a
time or with all resources of a window together, and windows and rows in any order: the timeline is
the same slot by slot, and so is everything else that the tasks of the pass look at.
-/

namespace ClusterPlan

namespace Frame

variable {f : Frame} {first last : Int} {o : Nat}

/-- The closed windows, each of them once and with all the resources that it closes. -/
def windows (f : Frame) : List Occupation :=
  (f.closures.map fun w => (w.1, w.2.1)).eraseDups.map fun w =>
    { first := w.1
      last := w.2
      resources := .ofIds ((f.closures.filter fun v => (v.1, v.2.1) == w).map fun v => v.2.2) }

theorem takes_windows :
    Timeline.Takes f.windows first last o ↔ (first, last, o) ∈ f.closures := by
  simp only [Timeline.Takes, windows, List.mem_map, List.mem_eraseDups]
  constructor
  · rintro ⟨_, ⟨_, ⟨w, _, rfl⟩, rfl⟩, rfl, rfl, ho⟩
    simp only [OrdinalSet.mem_ofIds, List.mem_map, List.mem_filter, beq_iff_eq, Prod.mk.injEq] at ho
    obtain ⟨v, ⟨hv, hfirst, hlast⟩, rfl⟩ := ho
    rw [← hfirst, ← hlast]
    exact hv
  · intro hclosed
    refine ⟨_, ⟨_, ⟨_, hclosed, rfl⟩, rfl⟩, rfl, rfl, ?_⟩
    simp only [OrdinalSet.mem_ofIds, List.mem_map, List.mem_filter, beq_iff_eq, Prod.mk.injEq]
    exact ⟨_, ⟨hclosed, rfl, rfl⟩, rfl⟩

end Frame

namespace PassState

variable {f : Frame} {m : Matcher} {s : PassState} {windows : List Occupation}
  {rows : List GanttRow}

/-- Closes the windows, then loads the rows, each in the order given. -/
def loadVisiting (s : PassState) (f : Frame) (windows : List Occupation)
    (rows : List GanttRow) : PassState :=
  rows.foldl (loadRow f) { s with timeline := s.timeline.occupyAll windows }

/-- The job holds this claim in the ledger. -/
def Owns (s : PassState) (id : Int) (claim : Claim) : Prop :=
  ∃ n, s.claims.get? id = some n ∧ (n, claim) ∈ s.ledger.claims

theorem Opened.owns_iff (h : Opened f rows s) {id : Int} {claim : Claim} :
    s.Owns id claim ↔ ∃ e ∈ rows.filterMap f.recorded?, e.1.job = id ∧ e.2 = claim := by
  simp only [Owns, h.numbers, h.claims, List.mem_map]
  constructor
  · rintro ⟨n, ⟨e, he, hid, rfl⟩, e', he', heq⟩
    obtain ⟨hn, rfl⟩ := Prod.mk.inj heq
    obtain rfl := Opened.numbers_nodup he he' hn.symm
    exact ⟨e.1, List.fst_mem_of_mem_zipIdx he, hid, rfl⟩
  · rintro ⟨e, he, hid, rfl⟩
    obtain ⟨i, hi⟩ := List.mem_iff_getElem?.1 he
    have hmem := List.mk_mem_zipIdx_iff_getElem?.2 hi
    exact ⟨i, ⟨_, hmem, hid, rfl⟩, _, hmem, rfl⟩

theorem Opened.claims_map (h : Opened f rows s) :
    s.ledger.claims.map (·.2) = (rows.filterMap f.recorded?).map (·.2) := by
  rw [h.claims, List.map_map]
  conv_rhs => rw [← List.zipIdx_map_fst 0 (rows.filterMap f.recorded?), List.map_map]
  rfl

/-- The states look alike to every task of a pass. -/
structure BeginsLike (s s' : PassState) : Prop where
  /-- The same slots, with their borders and free sets. -/
  timeline : s'.timeline = s.timeline
  placements : ∀ id, s'.placements.get? id = s.placements.get? id
  reservations : ∀ id, s'.reservations.get? id = s.reservations.get? id
  bestEffort : s'.bestEffort.Perm s.bestEffort
  /-- Every check is answered alike, with the same dimension if it is refused. -/
  checks : ∀ new, s'.ledger.refusal? new = s.ledger.refusal? new
  claimants : ∀ job, s'.ledger.claimant job = s.ledger.claimant job
  owners : ∀ id claim, s'.Owns id claim ↔ s.Owns id claim

theorem opened_loadVisiting (f : Frame) (m : Matcher) (windows : List Occupation)
    (hrows : rows.Pairwise fun r r' => r.job ≠ r'.job) :
    Opened f rows ((initial f m).loadVisiting f windows rows) := by
  refine opened_foldl_loadRow rows hrows ?_
  have hclosed := opened_closed f m
  rw [timeline_foldl_close] at hclosed
  exact
    { rules := hclosed.rules
      claims := hclosed.claims
      next := hclosed.next
      numbers := hclosed.numbers }

theorem timeline_loadVisiting (hwindows : windows.Perm f.windows) (hrows : rows.Perm f.rows) :
    ((initial f m).loadVisiting f windows rows).timeline = ((initial f m).load f).timeline := by
  have hinitial : (initial f m).timeline.WellFormed := Timeline.wellFormed_initial _ _ _
  rw [timeline_load, loadVisiting, timeline_foldl_loadRow, ← Timeline.occupyAll_append]
  refine Timeline.occupyAll_congr hinitial fun first last o => ?_
  rw [Timeline.takes_append, Timeline.takes_append, Timeline.takes_of_perm hwindows,
    Timeline.takes_of_perm (hrows.filterMap _), Frame.takes_windows]
  refine or_congr ?_ Iff.rfl
  simp only [Timeline.Takes, List.mem_map]
  constructor
  · exact fun h => ⟨_, ⟨_, h, rfl⟩, rfl, rfl, OrdinalSet.mem_single.2 rfl⟩
  · rintro ⟨_, ⟨w, hw, rfl⟩, rfl, rfl, ho⟩
    rw [OrdinalSet.mem_single.1 ho]
    exact hw

/-- In whatever order the closed windows and the rows are visited, what stands before the first task
is the same. -/
theorem loadVisiting_beginsLike (f : Frame) (m : Matcher) (windows : List Occupation)
    (rows : List GanttRow) (hwindows : windows.Perm f.windows) (hrows : rows.Perm f.rows) :
    BeginsLike ((initial f m).load f) ((initial f m).loadVisiting f windows rows) := by
  have hdistinct := hrows.symm.pairwise f.rows_distinct fun hne => hne.symm
  have hopened : Opened f f.rows ((initial f m).load f) :=
    opened_foldl_loadRow f.rows f.rows_distinct (opened_closed f m)
  have hvisited := opened_loadVisiting f m windows hdistinct
  have hrules := hvisited.rules.trans hopened.rules.symm
  constructor
  · exact timeline_loadVisiting hwindows hrows
  · intro id
    rw [load, loadVisiting, placements_foldl_loadRow, placements_foldl_loadRow, timeline_foldl_close]
    exact Dictionary.get?_putSome_of_perm hrows f.rows_distinct _ id
  · intro id
    rw [load, loadVisiting, reservations_foldl_loadRow, reservations_foldl_loadRow, timeline_foldl_close]
    exact Dictionary.get?_putSome_of_perm hrows f.rows_distinct _ id
  · rw [load, loadVisiting, bestEffort_foldl_loadRow, bestEffort_foldl_loadRow, timeline_foldl_close]
    exact (hrows.filterMap _).append_left _
  · refine Ledger.refusal?_of_perm hrules ?_
    rw [hvisited.claims_map, hopened.claims_map]
    exact (hrows.filterMap _).map _
  · exact claimant_eq hrules
  · intro id claim
    rw [hvisited.owns_iff, hopened.owns_iff]
    simp only [(hrows.filterMap f.recorded?).mem_iff]

/-- Two suspected resources, one that is available up to 499, and one that is held by an active job
and from 200 on by a reservation. -/
def crowdedFrame : Frame :=
  { twoResourceFrame 9 with
    catalog := ⟨1, [⟨1, .suspected, none, none, []⟩, ⟨2, .suspected, none, none, []⟩,
      ⟨3, .alive, some 499, none, []⟩, ⟨4, .alive, none, none, []⟩], by decide⟩
    gantt := [⟨7, 70, 200, 10, [4]⟩, ⟨9, 10, 50, 100, [4]⟩]
    active := [{ exampleJob 9 [] 1 with state := .running }]
    waiting := [{ exampleReservation with reservation := .scheduled }] }

/-- The windows and the rows in reverse. -/
theorem loadVisiting_beginsLike_crowdedFrame :
    let windows : List Occupation :=
      [⟨500, 2147483647, .single 2⟩, ⟨100, 2147483647, .ofIds [0, 1]⟩]
    let rows : List GanttRow := [⟨9, 10, 50, 100, [4]⟩, ⟨7, 70, 200, 10, [4]⟩]
    let s := (initial crowdedFrame .empty).loadVisiting crowdedFrame windows rows
    windows.Perm crowdedFrame.windows ∧ rows.Perm crowdedFrame.rows ∧
      BeginsLike ((initial crowdedFrame .empty).load crowdedFrame) s ∧
      s.timeline.slots = [⟨100, 149, .single 2⟩, ⟨150, 199, .ofIds [2, 3]⟩, ⟨200, 209, .single 2⟩,
        ⟨210, 499, .ofIds [2, 3]⟩, ⟨500, 2147483647, .single 3⟩] := by
  have hwindows : List.Perm [⟨500, 2147483647, .single 2⟩, ⟨100, 2147483647, .ofIds [0, 1]⟩]
      crowdedFrame.windows := by decide +kernel
  have hrows : List.Perm [⟨9, 10, 50, 100, [4]⟩, ⟨7, 70, 200, 10, [4]⟩] crowdedFrame.rows := by
    decide +kernel
  exact ⟨hwindows, hrows, loadVisiting_beginsLike crowdedFrame .empty _ _ hwindows hrows,
    by decide +kernel⟩

end PassState
end ClusterPlan
