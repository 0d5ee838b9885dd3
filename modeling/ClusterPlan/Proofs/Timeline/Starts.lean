import ClusterPlan.Proofs.Timeline.Occupancy

/-!
The starts worth trying. They ascend, and nothing is lost by trying them alone: what is free at a
second was free since a start before it.
-/

namespace ClusterPlan.Timeline

variable {tl : Timeline} {t u : Int}

theorem pairwise_first_of_tiles {first last : Int} {slots : List Slot}
    (h : Tiles first last slots) : (slots.map Slot.first).Pairwise (· < ·) := by
  induction slots generalizing first with
  | nil => exact .nil
  | cons s rest ih =>
      obtain ⟨_, hle, _, hrest⟩ := h
      refine List.pairwise_cons.2 ⟨fun b hb => ?_, ih hrest⟩
      obtain ⟨q, hq, rfl⟩ := List.mem_map.1 hb
      have := tiles_bounds hrest q hq
      omega

theorem isSome_indexAt? (h : tl.WellFormed) :
    (tl.indexAt? t).isSome = true ↔ tl.origin ≤ t ∧ t ≤ tl.horizon := by
  simp only [indexAt?]
  split
  · simp only [Option.isSome_none, Bool.false_eq_true, false_iff]
    omega
  · rw [List.findIdx?_isSome, List.any_eq_true]
    constructor
    · omega
    · rintro ⟨hfirst, hlast⟩
      exact exists_slot_of_tiles h hfirst hlast

theorem mem_startsFrom (h : tl.WellFormed) :
    u ∈ tl.startsFrom t ↔
      u = t ∧ tl.origin ≤ t ∧ t ≤ tl.horizon ∨ t < u ∧ ∃ s ∈ tl.slots, s.first = u := by
  rw [startsFrom, List.mem_append, List.mem_filter, List.mem_map, decide_eq_true_eq, and_comm,
    ← isSome_indexAt? h]
  refine or_congr ?_ Iff.rfl
  split
  · rename_i hsome
    simp [hsome]
  · rename_i hnone
    simp [hnone]

theorem startsFrom_ascending (h : tl.WellFormed) (t : Int) :
    (tl.startsFrom t).Pairwise (· < ·) := by
  rw [startsFrom, List.pairwise_append]
  refine ⟨?_, (pairwise_first_of_tiles h).filter _, fun a ha b hb => ?_⟩
  · split
    · exact List.pairwise_singleton _ _
    · exact .nil
  · split at ha
    · rw [List.mem_singleton.1 ha]
      exact of_decide_eq_true (List.mem_filter.1 hb).2
    · cases ha

theorem le_of_mem_startsFrom (h : tl.WellFormed) (hu : u ∈ tl.startsFrom t) : t ≤ u := by
  rcases (mem_startsFrom h).1 hu with ⟨rfl, -⟩ | ⟨hlt, -⟩
  · exact Int.le_refl _
  · omega

/-- The last start worth trying up to `t`, of those from `u` on. -/
structure LastStart (tl : Timeline) (u t b : Int) : Prop where
  isStart : b ∈ tl.startsFrom u
  upto : b ≤ t
  latest : ∀ v ∈ tl.startsFrom u, v ≤ t → v ≤ b

/-- The last start up to `t` is in the same slot. -/
theorem exists_lastStart (h : tl.WellFormed) (horigin : tl.origin ≤ u) (hut : u ≤ t)
    (ht : t ≤ tl.horizon) :
    ∃ b, tl.LastStart u t b ∧ ∀ o v, b ≤ v → v ≤ t → tl.Free o t → tl.Free o v := by
  obtain ⟨s, hs, hst⟩ := exists_slot_of_tiles h (Int.le_trans horigin hut) ht
  have hsame : ∀ o v, s.first ≤ v → v ≤ t → tl.Free o t → tl.Free o v := by
    rintro o v hfirst hvt ⟨q, hq, hqt, hoq⟩
    rw [slot_unique_of_tiles h hq hs hqt hst] at hoq
    rw [Slot.contains_iff] at hst
    exact ⟨s, hs, Slot.contains_iff.2 ⟨hfirst, by omega⟩, hoq⟩
  -- A slot that begins up to `t` begins no later than the one around `t`.
  have hlatest : ∀ q ∈ tl.slots, q.first ≤ t → q.first ≤ s.first := by
    refine fun q hq hqt => Int.not_lt.1 fun hlater => ?_
    have hbounds := tiles_bounds h q hq
    rw [Slot.contains_iff] at hst
    have hqs := slot_unique_of_tiles h hq hs
      (Slot.contains_iff.2 ⟨Int.le_refl _, hbounds.2.1⟩) (Slot.contains_iff.2 ⟨by omega, by omega⟩)
    rw [hqs] at hlater
    omega
  rw [Slot.contains_iff] at hst
  by_cases hfirst : u < s.first
  · refine ⟨s.first, ⟨(mem_startsFrom h).2 (Or.inr ⟨hfirst, s, hs, rfl⟩), hst.1, fun v hv hvt => ?_⟩,
      hsame⟩
    rcases (mem_startsFrom h).1 hv with ⟨rfl, -⟩ | ⟨-, q, hq, rfl⟩
    · omega
    · exact hlatest q hq hvt
  · refine ⟨u, ⟨(mem_startsFrom h).2 (Or.inl ⟨rfl, horigin, by omega⟩), hut, fun v hv hvt => ?_⟩,
      fun o v huv => hsame o v (by omega)⟩
    rcases (mem_startsFrom h).1 hv with ⟨rfl, -⟩ | ⟨-, q, hq, rfl⟩
    · exact Int.le_refl _
    · exact Int.le_trans (hlatest q hq hvt) (by omega)

/-- What is free over a window that begins at `t` is free over one that begins earlier in the slot
of `t` and ends no later. -/
theorem freeOver_subset (h : tl.WellFormed) {b last last' : Int} (horigin : tl.origin ≤ b)
    (hlast' : b ≤ last') (hle : last' ≤ last)
    (hsame : ∀ o v, b ≤ v → v ≤ t → tl.Free o t → tl.Free o v) :
    ∀ o ∈ tl.freeOver t last, o ∈ tl.freeOver b last' := by
  intro o ho
  rw [mem_freeOver h] at ho ⊢
  obtain ⟨_, hfirst, hhorizon, hfree⟩ := ho
  refine ⟨horigin, hlast', by omega, fun v hbv hv => ?_⟩
  by_cases hvt : v ≤ t
  · exact hsame o v hbv hvt (hfree t (Int.le_refl _) hfirst)
  · exact hfree v (by omega) (by omega)

/-- What is free over a window can only shrink with what is free at each second. -/
theorem freeOver_mono {tl' : Timeline} (h : tl.WellFormed) (h' : tl'.WellFormed)
    (horigin : tl'.origin = tl.origin) (hhorizon : tl'.horizon = tl.horizon)
    (hfree : ∀ o v, tl'.Free o v → tl.Free o v) (first last : Int) :
    ∀ o ∈ tl'.freeOver first last, o ∈ tl.freeOver first last := by
  intro o ho
  rw [mem_freeOver h'] at ho
  rw [mem_freeOver h, ← horigin, ← hhorizon]
  exact ⟨ho.1, ho.2.1, ho.2.2.1, fun v hfirst hlast => hfree o v (ho.2.2.2 v hfirst hlast)⟩

end ClusterPlan.Timeline
