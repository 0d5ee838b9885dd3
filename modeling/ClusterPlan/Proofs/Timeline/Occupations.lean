import ClusterPlan.Proofs.Timeline.Occupancy

/-!
What a timeline says after any sequence of occupations. It forgets the sequence: only who takes a
resource over which window can be told from it, and that is also all that decides what is free.
-/

namespace ClusterPlan

/-- One window with the resources that it takes. -/
structure Occupation where
  first : Int
  last : Int
  resources : OrdinalSet
  deriving DecidableEq

namespace Occupation

/-- The window has a second in common with `[first, last]`. -/
def Meets (c : Occupation) (first last : Int) : Prop :=
  ∃ t, (c.first ≤ t ∧ t ≤ c.last) ∧ first ≤ t ∧ t ≤ last

theorem meets_iff {c : Occupation} {first last : Int} :
    c.Meets first last ↔ max c.first first ≤ min c.last last := by
  constructor
  · rintro ⟨t, hwindow, hasked⟩
    omega
  · intro h
    exact ⟨max c.first first, by omega, by omega⟩

instance (c : Occupation) (first last : Int) : Decidable (c.Meets first last) :=
  decidable_of_iff _ meets_iff.symm

/-- The resources of the occupations that meet a window. -/
def takenOver (calls : List Occupation) (first last : Int) : OrdinalSet :=
  OrdinalSet.unionAll ((calls.filter fun c => c.Meets first last).map resources)

theorem mem_takenOver {calls : List Occupation} {first last : Int} {o : Nat} :
    o ∈ takenOver calls first last ↔ ∃ c ∈ calls, c.Meets first last ∧ o ∈ c.resources := by
  simp only [takenOver, OrdinalSet.mem_unionAll, List.mem_map, List.mem_filter, decide_eq_true_eq]
  constructor
  · rintro ⟨_, ⟨c, ⟨hc, hmeets⟩, rfl⟩, ho⟩
    exact ⟨c, hc, hmeets, ho⟩
  · rintro ⟨c, hc, hmeets, ho⟩
    exact ⟨_, ⟨c, ⟨hc, hmeets⟩, rfl⟩, ho⟩

end Occupation

namespace Timeline

def occupyAll (tl : Timeline) (calls : List Occupation) : Timeline :=
  calls.foldl (fun tl c => tl.occupy c.first c.last c.resources) tl

@[simp] theorem occupyAll_nil (tl : Timeline) : tl.occupyAll [] = tl := rfl

@[simp] theorem occupyAll_cons (tl : Timeline) (c : Occupation) (calls : List Occupation) :
    tl.occupyAll (c :: calls) = (tl.occupy c.first c.last c.resources).occupyAll calls := rfl

theorem occupyAll_append (tl : Timeline) (calls later : List Occupation) :
    tl.occupyAll (calls ++ later) = (tl.occupyAll calls).occupyAll later :=
  List.foldl_append

@[simp] theorem occupyAll_origin (tl : Timeline) (calls : List Occupation) :
    (tl.occupyAll calls).origin = tl.origin := by
  induction calls generalizing tl with
  | nil => rfl
  | cons c rest ih => rw [occupyAll_cons, ih, occupy_origin]

@[simp] theorem occupyAll_horizon (tl : Timeline) (calls : List Occupation) :
    (tl.occupyAll calls).horizon = tl.horizon := by
  induction calls generalizing tl with
  | nil => rfl
  | cons c rest ih => rw [occupyAll_cons, ih, occupy_horizon]

theorem wellFormed_occupyAll {tl : Timeline} (h : tl.WellFormed) (calls : List Occupation) :
    (tl.occupyAll calls).WellFormed := by
  induction calls generalizing tl with
  | nil => exact h
  | cons c rest ih => exact ih (wellFormed_occupy h _ _ _)

theorem free_occupyAll {tl : Timeline} (h : tl.WellFormed) {calls : List Occupation} {o : Nat}
    {t : Int} :
    (tl.occupyAll calls).Free o t ↔
      tl.Free o t ∧ ∀ c ∈ calls, ¬ (c.first ≤ t ∧ t ≤ c.last ∧ o ∈ c.resources) := by
  induction calls generalizing tl with
  | nil => simp
  | cons c rest ih =>
      rw [occupyAll_cons, ih (wellFormed_occupy h _ _ _), free_occupy h, List.forall_mem_cons,
        and_assoc]

/-- What no call took over a window is free over it. -/
theorem freeOver_occupyAll {origin horizon first last : Int} {all : OrdinalSet}
    {calls : List Occupation} (horigin : origin ≤ first) (hwindow : first ≤ last)
    (hhorizon : last ≤ horizon) :
    ((initial origin horizon all).occupyAll calls).freeOver first last =
      all \ Occupation.takenOver calls first last := by
  have hinitial := wellFormed_initial origin horizon all
  refine OrdinalSet.ext_mem fun o => ?_
  rw [mem_freeOver (wellFormed_occupyAll hinitial calls), occupyAll_origin, occupyAll_horizon,
    OrdinalSet.mem_sdiff, Occupation.mem_takenOver]
  simp only [free_occupyAll hinitial, free_initial]
  constructor
  · rintro ⟨_, _, _, hfree⟩
    obtain ⟨⟨_, _, hall⟩, _⟩ := hfree first (Int.le_refl _) hwindow
    refine ⟨hall, ?_⟩
    rintro ⟨c, hc, ⟨t, hct, hfirst, hlast⟩, hoc⟩
    exact (hfree t hfirst hlast).2 c hc ⟨hct.1, hct.2, hoc⟩
  · rintro ⟨hall, htaken⟩
    refine ⟨horigin, hwindow, hhorizon, fun t hfirst hlast => ⟨⟨?_, ?_, hall⟩, ?_⟩⟩
    · exact Int.le_trans horigin hfirst
    · exact Int.le_trans hlast hhorizon
    · rintro c hc ⟨hcfirst, hclast, hoc⟩
      exact htaken ⟨c, hc, ⟨t, ⟨hcfirst, hclast⟩, hfirst, hlast⟩, hoc⟩

/-- Slots that lie one after the other, the end of each before the next. -/
theorem pairwise_before_of_tiles {first last : Int} {slots : List Slot}
    (h : Tiles first last slots) : slots.Pairwise fun s q => s.last < q.first := by
  induction slots generalizing first with
  | nil => exact .nil
  | cons s rest ih =>
      obtain ⟨_, _, _, hrest⟩ := h
      refine List.pairwise_cons.2 ⟨fun q hq => ?_, ih hrest⟩
      have := tiles_bounds hrest q hq
      omega

theorem tiles_nil_of_lt {first last : Int} {slots : List Slot} (h : Tiles first last slots)
    (hlt : last < first) : slots = [] := by
  cases slots with
  | nil => rfl
  | cons s rest =>
      obtain ⟨_, _, _, _⟩ := h
      omega

/-- A timeline from `origin` to `horizon` on which the calls took their resources out of
`all`. -/
structure Tells (origin horizon : Int) (all : OrdinalSet) (calls : List Occupation)
    (tl : Timeline) : Prop where
  ascending : tl.slots.Pairwise fun s q => s.last < q.first
  proper : ∀ s ∈ tl.slots, s.first ≤ s.last
  /-- Each slot but the first begins right after one ends, and the ends are those of the timeline. -/
  tiles : Tiles origin horizon tl.slots
  covered : ∀ t, (origin ≤ t ∧ t ≤ horizon) ↔ ∃ s ∈ tl.slots, s.contains t = true
  apart : ∀ s ∈ tl.slots, ∀ q ∈ tl.slots, ∀ t, s.contains t = true → q.contains t = true → s = q
  empty : horizon < origin → tl.slots = []
  free : ∀ first last, origin ≤ first → first ≤ last → last ≤ horizon →
    tl.freeOver first last = all \ Occupation.takenOver calls first last

/-- Whatever windows are occupied, in whatever sequence: the slots tile the time from the origin to
the horizon, and free over a window is what no call took that meets it. -/
theorem occupyAll_tells (origin horizon : Int) (all : OrdinalSet) (calls : List Occupation) :
    Tells origin horizon all calls ((initial origin horizon all).occupyAll calls) := by
  have hinitial := wellFormed_initial origin horizon all
  have htiles : Tiles origin horizon ((initial origin horizon all).occupyAll calls).slots := by
    have h := wellFormed_occupyAll hinitial calls
    rwa [WellFormed, occupyAll_origin, occupyAll_horizon] at h
  constructor
  · exact pairwise_before_of_tiles htiles
  · exact fun s hs => (tiles_bounds htiles s hs).2.1
  · exact htiles
  · intro t
    constructor
    · rintro ⟨horigin, hhorizon⟩
      exact exists_slot_of_tiles htiles horigin hhorizon
    · rintro ⟨s, hs, hst⟩
      have := tiles_bounds htiles s hs
      rw [Slot.contains_iff] at hst
      omega
  · exact fun s hs q hq t => slot_unique_of_tiles htiles hs hq
  · exact tiles_nil_of_lt htiles
  · exact fun _ _ => freeOver_occupyAll

-- A window that begins before the timeline, an inverted one and one beyond the horizon.
example :
    ((initial 0 99 (.ofIds [0, 1, 2])).occupyAll
      [⟨-5, 9, .single 0⟩, ⟨40, 30, .single 1⟩, ⟨50, 200, .single 2⟩]).slots =
      [⟨0, 9, .ofIds [1, 2]⟩, ⟨10, 49, .ofIds [0, 1, 2]⟩, ⟨50, 99, .ofIds [0, 1]⟩] := by decide

end Timeline
end ClusterPlan
