import ClusterPlan.Proofs.Matching.Room
import ClusterPlan.Proofs.Pass.Booking
import ClusterPlan.Proofs.Timeline.Starts

/-!
Where a candidate has room, and what a pass remembers about it. Room at a second means room at a start
before it, and remembered starts pass over seconds without room only, so a search that skips what is
remembered finds the same starts with room as one that does not.
-/

namespace ClusterPlan

namespace Frame

variable {f : Frame} {start walltime t u : Int}

theorem windowEnd_mono (walltime : Int) (h : t ≤ u) :
    Time.windowEnd t walltime ≤ Time.windowEnd u walltime := by
  simp only [Time.windowEnd, Time.later]
  omega

theorem heldOnTimeline_mono (f : Frame) (walltime : Int) (h : t ≤ u) :
    f.heldOnTimeline t walltime ≤ f.heldOnTimeline u walltime := by
  have := windowEnd_mono walltime h
  simp only [heldOnTimeline, heldUntil, Time.later]
  omega

/-- A window that ends on the timeline ends at or after its start. -/
theorem le_windowEnd (hwalltime : 0 < walltime) (h : Time.windowEnd start walltime ≤ f.horizon) :
    start ≤ Time.windowEnd start walltime := by
  simp only [Time.windowEnd, Time.later, horizon, Time.earliest, Time.latest, Time.lastInstant,
    Number.leastInt, Number.greatestInt] at h ⊢
  omega

theorem le_heldOnTimeline_of_windowEnd (hwalltime : 0 < walltime)
    (h : Time.windowEnd start walltime ≤ f.horizon) : start ≤ f.heldOnTimeline start walltime := by
  have hstart := le_windowEnd hwalltime h
  simp only [heldOnTimeline, heldUntil, security, Time.windowEnd, Time.later, horizon, Time.earliest,
    Time.latest, Time.lastInstant, Number.leastInt, Number.greatestInt] at *
  omega

/-- The candidate would end by the horizon, and it can be chosen from what is free while it would
hold its resources. -/
def RoomAt (f : Frame) (tl : Timeline) (c : Candidate) (t : Int) : Prop :=
  Time.windowEnd t c.walltime ≤ f.horizon ∧
    (c.pick? (tl.freeOver t (f.heldOnTimeline t c.walltime))).isSome = true

/-- A timeline of the pass. -/
structure Times (f : Frame) (tl : Timeline) : Prop where
  wellFormed : tl.WellFormed
  origin : tl.origin = f.now
  horizon : tl.horizon = f.horizon

variable {tl tl' : Timeline} {c : Candidate}

/-- Room at a second is room at the last start worth trying before it. -/
theorem exists_lastStart_of_roomAt (htl : f.Times tl) (hsteady : c.Steady) (hwalltime : 0 < c.walltime)
    (hnow : f.now ≤ t) (h : f.RoomAt tl c t) : ∃ b, tl.LastStart f.now t b ∧ f.RoomAt tl c b := by
  obtain ⟨hend, hpick⟩ := h
  have ht := le_windowEnd hwalltime hend
  obtain ⟨b, hb, hsame⟩ := Timeline.exists_lastStart htl.wellFormed (htl.origin.trans_le (le_refl _))
    hnow (by rw [htl.horizon]; omega)
  have hnowb := Timeline.le_of_mem_startsFrom htl.wellFormed hb.isStart
  have hbend := (windowEnd_mono c.walltime hb.upto).trans hend
  refine ⟨b, hb, hbend, hsteady _ _ ?_ hpick⟩
  exact Timeline.freeOver_subset htl.wellFormed (htl.origin.trans_le hnowb)
    (le_heldOnTimeline_of_windowEnd hwalltime hbend) (f.heldOnTimeline_mono c.walltime hb.upto) hsame

/-- On a timeline with less free there is no more room. -/
theorem roomAt_mono (htl : f.Times tl) (htl' : f.Times tl') (hsteady : c.Steady)
    (hfree : ∀ o v, tl'.Free o v → tl.Free o v) (h : f.RoomAt tl' c t) : f.RoomAt tl c t :=
  ⟨h.1, hsteady _ _ (Timeline.freeOver_mono htl.wellFormed htl'.wellFormed
    (htl'.origin.trans htl.origin.symm) (htl'.horizon.trans htl.horizon.symm) hfree _ _) h.2⟩

end Frame

/-- The seconds at which there is no room, as far as is known. -/
def FirstRoom.Excludes : FirstRoom → Int → Prop
  | .at u, t => t < u
  | .nowhere, _ => True

/-- What is remembered about shapes is right: no candidate of the shape has room at a second that
is excluded. -/
def FitsRight (f : Frame) (tl : Timeline) (fits : Dictionary Shape FirstRoom) : Prop :=
  ∀ shape room, fits.get? shape = some room → ∀ jobFilter (a : Alternative) c,
    a.shape jobFilter = shape → f.catalog.candidate jobFilter a = .ok c → c.Steady →
      ∀ t, f.now ≤ t → room.Excludes t → ¬ f.RoomAt tl c t

namespace FitsRight

variable {f : Frame} {tl tl' : Timeline} {fits : Dictionary Shape FirstRoom}

theorem nil : FitsRight f tl [] := fun _ _ h => nomatch h

theorem mono (h : FitsRight f tl fits) (htl : f.Times tl) (htl' : f.Times tl')
    (hfree : ∀ o v, tl'.Free o v → tl.Free o v) : FitsRight f tl' fits :=
  fun shape room hroom jobFilter a c hshape hc hsteady t hnow hexcludes hroomAt =>
    h shape room hroom jobFilter a c hshape hc hsteady t hnow hexcludes
      (Frame.roomAt_mono htl htl' hsteady hfree hroomAt)

/-- What is true of one candidate of a shape is true of all of them. -/
theorem put {jobFilter : Option String} {a : Alternative} {c : Candidate} {room : FirstRoom}
    (h : FitsRight f tl fits) (hc : f.catalog.candidate jobFilter a = .ok c)
    (hroom : c.Steady → ∀ t, f.now ≤ t → room.Excludes t → ¬ f.RoomAt tl c t) :
    FitsRight f tl (fits.put (a.shape jobFilter) room) := by
  intro shape room' hget otherFilter b d hshape hd hsteady t hnow hexcludes
  rw [Dictionary.get?_put] at hget
  split at hget
  · rename_i heq
    cases hget
    rw [Catalog.candidate_of_shape_eq (heq.trans hshape.symm) hc] at hd
    cases hd
    exact hroom hsteady t hnow hexcludes
  · exact h shape room' hget otherFilter b d hshape hd hsteady t hnow hexcludes

end FitsRight

namespace PassState

variable {f : Frame} {s : PassState} {job : Job} {c : Candidate} {t : Int}

theorem attempt_eq_noRoom_iff (hs : f.Times s.timeline) :
    s.attempt f job c t = .noRoom ↔ ¬ f.RoomAt s.timeline c t := by
  simp only [attempt, Frame.RoomAt, hs.horizon]
  split
  · simp only [true_iff, not_and]
    omega
  · rename_i hend
    rw [not_lt] at hend
    cases hpick : c.pick? (s.timeline.freeOver t (f.heldOnTimeline t c.walltime)) with
    | none => simp
    | some chosen =>
        simp only [hend, Option.isSome_some, and_self, not_true_eq_false, iff_false]
        split
        · exact Attempt.noConfusion
        · split <;> exact Attempt.noConfusion

section Starts

/-- The starts from `u` on at which the candidate would end by the horizon. -/
def startsSince (s : PassState) (c : Candidate) (u : Int) : List Int :=
  (s.timeline.startsFrom u).takeWhile fun t => Time.windowEnd t c.walltime ≤ s.timeline.horizon

/-- The starts of a list that have room. -/
def roomy (s : PassState) (f : Frame) (job : Job) (c : Candidate) (ts : List Int) : List Int :=
  ts.filter fun t => s.attempt f job c t ≠ .noRoom

theorem mem_roomy_startsSince (hs : f.Times s.timeline) (u : Int) :
    t ∈ s.roomy f job c (s.startsSince c u) ↔
      t ∈ s.timeline.startsFrom u ∧ f.RoomAt s.timeline c t := by
  have hmono : ∀ a b : Int, a < b →
      Decidable.decide (Time.windowEnd b c.walltime ≤ s.timeline.horizon) = true →
      Decidable.decide (Time.windowEnd a c.walltime ≤ s.timeline.horizon) = true := by
    intro a b hab
    simp only [decide_eq_true_eq]
    exact (Frame.windowEnd_mono c.walltime hab.le).trans
  rw [roomy, startsSince, List.mem_filter,
    mem_takeWhile_of_ascending (Timeline.startsFrom_ascending hs.wellFormed u) hmono]
  simp only [decide_eq_true_eq, ne_eq, attempt_eq_noRoom_iff hs, not_not, hs.horizon, and_assoc]
  exact and_congr_right fun _ => and_iff_right_of_imp And.left

theorem roomy_startsSince_ascending (hs : f.Times s.timeline) (u : Int) :
    (s.roomy f job c (s.startsSince c u)).Pairwise (· < ·) :=
  (Timeline.startsFrom_ascending hs.wellFormed u).sublist
    (List.filter_sublist.trans (List.takeWhile_sublist _))

/-- Starting the search at a second before which there is no room loses no start with room, and it
adds none. -/
theorem roomy_startsSince {u : Int} (hs : f.Times s.timeline) (hsteady : c.Steady)
    (hwalltime : 0 < c.walltime) (hnow : f.now ≤ u)
    (hbefore : ∀ t, f.now ≤ t → t < u → ¬ f.RoomAt s.timeline c t) :
    s.roomy f job c (s.startsSince c u) =
      s.roomy f job c (s.startsSince c f.now) := by
  refine (roomy_startsSince_ascending hs u).eq_of_mem_iff (roomy_startsSince_ascending hs f.now)
    fun t => ?_
  rw [mem_roomy_startsSince hs, mem_roomy_startsSince hs]
  refine and_congr_left fun hroom => ?_
  have hhorizon : t ≤ f.horizon := (Frame.le_windowEnd hwalltime hroom.1).trans hroom.1
  rw [Timeline.mem_startsFrom hs.wellFormed, Timeline.mem_startsFrom hs.wellFormed, hs.origin,
    hs.horizon]
  constructor
  · rintro (⟨rfl, _, _⟩ | ⟨hut, hslot⟩)
    · -- Room at the first start tried is room at a border before it, which can only be the start.
      obtain ⟨b, hb, hroomb⟩ := Frame.exists_lastStart_of_roomAt hs hsteady hwalltime hnow hroom
      have hstart := hb.isStart
      have hbt := hb.upto
      have hnot : ¬ b < t := fun hlt =>
        hbefore b (Timeline.le_of_mem_startsFrom hs.wellFormed hstart) hlt hroomb
      rw [show b = t by omega, Timeline.mem_startsFrom hs.wellFormed, hs.origin, hs.horizon] at hstart
      exact hstart
    · exact Or.inr ⟨by omega, hslot⟩
  · intro ht
    have hge : f.now ≤ t := by omega
    have hut : u ≤ t := not_lt.1 fun hlt => hbefore t hge hlt hroom
    by_cases heq : t = u
    · exact Or.inl ⟨heq, hnow, by omega⟩
    · rcases ht with ⟨rfl, _⟩ | ⟨_, hslot⟩
      · omega
      · exact Or.inr ⟨by omega, hslot⟩

/-- What the pass remembers changes nothing about the starts with room. -/
theorem roomy_starts {a : Alternative} (hs : f.Times s.timeline)
    (hfits : FitsRight f s.timeline s.fits) (hc : f.catalog.candidate job.filter a = .ok c)
    (hsteady : f.remembersFits = true → c.Steady) :
    s.roomy f job c (s.starts f (a.shape job.filter) c) = s.roomy f job c (s.startsSince c f.now) := by
  obtain ⟨hpositive, _, _, hwalltime, _⟩ := Catalog.candidate_eq_ok hc
  rw [← hwalltime] at hpositive
  simp only [starts, remembered?]
  cases hremembers : f.remembersFits with
  | false => rfl
  | true =>
      have hsteady := hsteady hremembers
      simp only [if_true]
      cases hget : s.fits.get? (a.shape job.filter) with
      | none => rfl
      | some room =>
          have hright := hfits _ _ hget job.filter a c rfl hc hsteady
          cases room with
          | «at» u =>
              refine roomy_startsSince hs hsteady hpositive (by omega) fun t hnow hlt => ?_
              exact hright t hnow (by simp only [FirstRoom.Excludes]; omega)
          | nowhere =>
              have hnone : ∀ t, t ∉ s.roomy f job c (s.startsSince c f.now) := by
                intro t ht
                rw [mem_roomy_startsSince hs] at ht
                have hnow := Timeline.le_of_mem_startsFrom hs.wellFormed ht.1
                exact hright t hnow trivial ht.2
              rw [List.eq_nil_iff_forall_not_mem.2 hnone]
              rfl

theorem roomy_cons_of_noRoom (h : s.attempt f job c t = .noRoom) (ts : List Int) :
    s.roomy f job c (t :: ts) = s.roomy f job c ts :=
  List.filter_cons_of_neg (by simp [h])

theorem roomy_cons_of_ne_noRoom (h : s.attempt f job c t ≠ .noRoom) (ts : List Int) :
    s.roomy f job c (t :: ts) = t :: s.roomy f job c ts :=
  List.filter_cons_of_pos (by simp [h])

/-- Starts without room do not matter to a search. -/
theorem searchStarts_roomy (ts : List Int) :
    searchStarts (s.attempt f job c) (s.roomy f job c ts) =
      searchStarts (s.attempt f job c) ts := by
  induction ts with
  | nil => rfl
  | cons t rest ih =>
      cases hattempt : s.attempt f job c t with
      | noRoom =>
          rw [roomy_cons_of_noRoom hattempt, ih]
          simp only [searchStarts, hattempt]
      | found resources =>
          rw [roomy_cons_of_ne_noRoom (by simp [hattempt])]
          simp only [searchStarts, hattempt]
      | overQuota d =>
          rw [roomy_cons_of_ne_noRoom (by simp [hattempt])]
          simp only [searchStarts, hattempt, ih]

/-- The first room that a search tells is at the first start with room. -/
theorem searchStarts_room (ts : List Int) :
    (searchStarts (s.attempt f job c) ts).2 =
      match s.roomy f job c ts with
      | [] => .nowhere
      | t :: _ => .at t := by
  induction ts with
  | nil => rfl
  | cons t rest ih =>
      cases hattempt : s.attempt f job c t with
      | noRoom =>
          rw [roomy_cons_of_noRoom hattempt, ← ih]
          simp only [searchStarts, hattempt]
      | found resources =>
          rw [roomy_cons_of_ne_noRoom (by simp [hattempt])]
          simp only [searchStarts, hattempt]
      | overQuota d =>
          rw [roomy_cons_of_ne_noRoom (by simp [hattempt])]
          simp only [searchStarts, hattempt]
          split <;> rfl

/-- The search for an alternative finds what one without memory would find. -/
theorem earliestFit_eq {a : Alternative} (hs : f.Times s.timeline)
    (hfits : FitsRight f s.timeline s.fits) (hc : f.catalog.candidate job.filter a = .ok c)
    (hsteady : f.remembersFits = true → c.Steady) :
    (s.earliestFit f job a c).2 = (searchStarts (s.attempt f job c) (s.startsSince c f.now)).1 := by
  rw [← searchStarts_roomy, ← roomy_starts hs hfits hc hsteady, searchStarts_roomy]
  rfl

/-- What a search remembers is right. -/
theorem fitsRight_earliestFit {a : Alternative} (hs : f.Times s.timeline)
    (hfits : FitsRight f s.timeline s.fits) (hc : f.catalog.candidate job.filter a = .ok c) :
    FitsRight f s.timeline (s.earliestFit f job a c).1.fits := by
  refine hfits.put hc fun hsteady t hnow hexcludes hroom => ?_
  obtain ⟨hpositive, _, _, hwalltime, _⟩ := Catalog.candidate_eq_ok hc
  rw [← hwalltime] at hpositive
  obtain ⟨b, hb, hroomb⟩ := Frame.exists_lastStart_of_roomAt hs hsteady hpositive hnow hroom
  have hbt := hb.upto
  have hmem : b ∈ s.roomy f job c (s.starts f (a.shape job.filter) c) := by
    rw [roomy_starts hs hfits hc fun _ => hsteady]
    exact (mem_roomy_startsSince hs f.now).2 ⟨hb.isStart, hroomb⟩
  rw [searchStarts_room] at hexcludes
  have hascending : (s.roomy f job c (s.starts f (a.shape job.filter) c)).Pairwise (· < ·) := by
    rw [roomy_starts hs hfits hc fun _ => hsteady]
    exact roomy_startsSince_ascending hs f.now
  cases hroomy : s.roomy f job c (s.starts f (a.shape job.filter) c) with
  | nil =>
      rw [hroomy] at hmem
      cases hmem
  | cons first rest =>
      rw [hroomy] at hmem hascending hexcludes
      have hle : first ≤ b := by
        rcases List.mem_cons.1 hmem with rfl | hmem
        · exact le_refl _
        · exact ((List.pairwise_cons.1 hascending).1 b hmem).le
      simp only [FirstRoom.Excludes] at hexcludes
      omega

end Starts

end PassState
end ClusterPlan
