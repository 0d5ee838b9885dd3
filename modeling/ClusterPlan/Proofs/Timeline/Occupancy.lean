import ClusterPlan.Proofs.OrdinalSet.Members
import ClusterPlan.Timeline.Basic

/-!
What a timeline says about each second. Its slots tile the time from the origin to the horizon, so
`Free` is well defined; occupying a window takes its resources out of exactly the seconds of the
window, and `freeOver` is what is free at every second asked for.
-/

namespace ClusterPlan

namespace Slot

theorem contains_iff {s : Slot} {t : Int} : s.contains t = true ↔ s.first ≤ t ∧ t ≤ s.last := by
  simp [contains]

end Slot

namespace Timeline

/-- Slots that follow one another from `first` to `last` without gap or overlap. -/
def Tiles : Int → Int → List Slot → Prop
  | first, last, [] => last < first
  | first, last, s :: rest =>
      s.first = first ∧ s.first ≤ s.last ∧ s.last ≤ last ∧ Tiles (s.last + 1) last rest

def WellFormed (tl : Timeline) : Prop := Tiles tl.origin tl.horizon tl.slots

/-- Whether slots have a resource free at a second. -/
def FreeIn (slots : List Slot) (o : Nat) (t : Int) : Prop :=
  ∃ s ∈ slots, s.contains t = true ∧ o ∈ s.free

def Free (tl : Timeline) (o : Nat) (t : Int) : Prop := FreeIn tl.slots o t

/-- No slot reaches from before `t` to `t` or beyond. -/
def CutAt (t : Int) (slots : List Slot) : Prop := ∀ s ∈ slots, s.last < t ∨ t ≤ s.first

section Tiling

theorem tiles_bounds {first last : Int} {slots : List Slot} (h : Tiles first last slots) :
    ∀ s ∈ slots, first ≤ s.first ∧ s.first ≤ s.last ∧ s.last ≤ last := by
  induction slots generalizing first with
  | nil => simp
  | cons q rest ih =>
      obtain ⟨hq, hle, hlast, hrest⟩ := h
      intro s hs
      rcases List.mem_cons.1 hs with rfl | hs
      · exact ⟨by omega, hle, hlast⟩
      · have := ih hrest s hs
        omega

theorem exists_slot_of_tiles {first last : Int} {slots : List Slot} (h : Tiles first last slots)
    {t : Int} (hfirst : first ≤ t) (hlast : t ≤ last) : ∃ s ∈ slots, s.contains t = true := by
  induction slots generalizing first with
  | nil =>
      simp only [Tiles] at h
      omega
  | cons q rest ih =>
      obtain ⟨hq, _, _, hrest⟩ := h
      by_cases ht : t ≤ q.last
      · exact ⟨q, by simp, Slot.contains_iff.2 ⟨by omega, ht⟩⟩
      · obtain ⟨s, hs, hst⟩ := ih hrest (by omega)
        exact ⟨s, List.mem_cons_of_mem _ hs, hst⟩

theorem slot_unique_of_tiles {first last : Int} {slots : List Slot} (h : Tiles first last slots)
    {s q : Slot} (hs : s ∈ slots) (hq : q ∈ slots) {t : Int} (hst : s.contains t = true)
    (hqt : q.contains t = true) : s = q := by
  induction slots generalizing first with
  | nil => cases hs
  | cons p rest ih =>
      obtain ⟨_, _, _, hrest⟩ := h
      rw [Slot.contains_iff] at hst hqt
      rcases List.mem_cons.1 hs with hsp | hs <;> rcases List.mem_cons.1 hq with hqp | hq
      · exact hsp.trans hqp.symm
      · have := tiles_bounds hrest q hq
        subst hsp
        omega
      · have := tiles_bounds hrest s hs
        subst hqp
        omega
      · exact ih hrest hs hq

/-- Splitting the first slot of a tiling splits the tiling. -/
theorem tiles_splitSlots {first last t : Int} {slots : List Slot} (h : Tiles first last slots) :
    Tiles first last (splitSlots t slots) := by
  induction slots generalizing first with
  | nil => exact h
  | cons s rest ih =>
      obtain ⟨hs, hle, hlast, hrest⟩ := h
      have hih := ih hrest
      simp only [splitSlots, List.flatMap_cons, Slot.splitAt?] at hih ⊢
      split
      · rename_i hsplit
        split at hsplit
        · cases hsplit
        · cases hsplit
          have hnext : t - 1 + 1 = t := by omega
          simp only [List.cons_append, List.nil_append, Tiles, hnext, true_and]
          exact ⟨hs, by omega, by omega, by omega, hlast, hih⟩
      · exact ⟨hs, hle, hlast, hih⟩

end Tiling

section Splitting

variable {t u : Int} {slots : List Slot} {o : Nat}

theorem mem_splitSlots {s : Slot} (h : s ∈ splitSlots t slots) :
    ∃ q ∈ slots, s.free = q.free ∧
      ((s.first = q.first ∧ s.last = q.last ∧ (t ≤ q.first ∨ q.last < t)) ∨
        (q.first < t ∧ t ≤ q.last ∧ s.first = q.first ∧ s.last = t - 1) ∨
        (q.first < t ∧ t ≤ q.last ∧ s.first = t ∧ s.last = q.last)) := by
  simp only [splitSlots, List.mem_flatMap, Slot.splitAt?] at h
  obtain ⟨q, hq, h⟩ := h
  refine ⟨q, hq, ?_⟩
  by_cases hout : t ≤ q.first ∨ q.last < t
  · simp only [hout, if_true, List.mem_singleton] at h
    subst h
    exact ⟨rfl, Or.inl ⟨rfl, rfl, hout⟩⟩
  · simp only [hout, if_false, List.mem_cons, List.not_mem_nil, or_false] at h
    rcases h with rfl | rfl
    · exact ⟨rfl, Or.inr (Or.inl ⟨by omega, by omega, rfl, rfl⟩)⟩
    · exact ⟨rfl, Or.inr (Or.inr ⟨by omega, by omega, rfl, rfl⟩)⟩

theorem freeIn_splitSlots : FreeIn (splitSlots t slots) o u ↔ FreeIn slots o u := by
  constructor
  · rintro ⟨s, hs, hsu, hos⟩
    obtain ⟨q, hq, hfree, hborders⟩ := mem_splitSlots hs
    rw [Slot.contains_iff] at hsu
    exact ⟨q, hq, Slot.contains_iff.2 (by omega), hfree ▸ hos⟩
  · rintro ⟨q, hq, hqu, hoq⟩
    rw [Slot.contains_iff] at hqu
    simp only [FreeIn, splitSlots, List.mem_flatMap, Slot.splitAt?]
    by_cases hout : t ≤ q.first ∨ q.last < t
    · exact ⟨q, ⟨q, hq, by simp [hout]⟩, Slot.contains_iff.2 hqu, hoq⟩
    · by_cases hut : u < t
      · refine ⟨{ q with last := t - 1 }, ⟨q, hq, by simp [hout]⟩, ?_, hoq⟩
        exact Slot.contains_iff.2 ⟨hqu.1, by simp only; omega⟩
      · refine ⟨{ q with first := t }, ⟨q, hq, by simp [hout]⟩, ?_, hoq⟩
        exact Slot.contains_iff.2 ⟨by simp only; omega, hqu.2⟩

theorem cutAt_splitSlots : CutAt t (splitSlots t slots) := by
  intro s hs
  obtain ⟨q, _, _, hborders⟩ := mem_splitSlots hs
  omega

theorem cutAt_splitSlots_of_cutAt (h : CutAt u slots) : CutAt u (splitSlots t slots) := by
  intro s hs
  obtain ⟨q, hq, _, hborders⟩ := mem_splitSlots hs
  have := h q hq
  omega

end Splitting

section Occupying

/-- Taking resources out of some slots does not move their borders. -/
theorem tiles_map_occupy {first last : Int} {slots : List Slot} (p : Slot → Prop)
    [DecidablePred p] (resources : OrdinalSet) (h : Tiles first last slots) :
    Tiles first last (slots.map fun s => if p s then s.occupy resources else s) := by
  induction slots generalizing first with
  | nil => exact h
  | cons s rest ih =>
      obtain ⟨hs, hle, hlast, hrest⟩ := h
      have hih := ih hrest
      simp only [List.map_cons]
      by_cases hp : p s
      · simp only [hp, if_true, Slot.occupy]
        exact ⟨hs, hle, hlast, hih⟩
      · simp only [hp, if_false]
        exact ⟨hs, hle, hlast, hih⟩

theorem wellFormed_initial (origin horizon : Int) (resources : OrdinalSet) :
    (initial origin horizon resources).WellFormed := by
  simp only [WellFormed, initial]
  split
  · exact ⟨rfl, by assumption, by simp only; omega, by simp only [Tiles]; omega⟩
  · simp only [Tiles]
    omega

@[simp] theorem occupy_origin (tl : Timeline) (first last : Int) (resources : OrdinalSet) :
    (tl.occupy first last resources).origin = tl.origin := by
  simp only [occupy]
  split <;> rfl

@[simp] theorem occupy_horizon (tl : Timeline) (first last : Int) (resources : OrdinalSet) :
    (tl.occupy first last resources).horizon = tl.horizon := by
  simp only [occupy]
  split <;> rfl

/-- A window that is over before the timeline begins takes nothing. -/
theorem occupy_of_lt {tl : Timeline} {last : Int} (h : last < tl.origin) (first : Int)
    (resources : OrdinalSet) : tl.occupy first last resources = tl := by
  simp only [occupy]
  rw [if_pos (Or.inl (by omega))]

theorem wellFormed_occupy {tl : Timeline} (h : tl.WellFormed) (first last : Int)
    (resources : OrdinalSet) : (tl.occupy first last resources).WellFormed := by
  simp only [WellFormed, occupy_origin, occupy_horizon]
  simp only [occupy]
  split
  · exact h
  · exact tiles_map_occupy _ _ (tiles_splitSlots (tiles_splitSlots h))

theorem free_initial {origin horizon : Int} {resources : OrdinalSet} {o : Nat} {t : Int} :
    (initial origin horizon resources).Free o t ↔
      origin ≤ t ∧ t ≤ horizon ∧ o ∈ resources := by
  simp only [Free, FreeIn, initial]
  split
  · simp only [List.mem_singleton, exists_eq_left, Slot.contains_iff, and_assoc]
  · constructor
    · rintro ⟨s, hs, _⟩
      cases hs
    · omega

theorem bounds_of_free {tl : Timeline} (h : tl.WellFormed) {o : Nat} {t : Int}
    (hfree : tl.Free o t) : tl.origin ≤ t ∧ t ≤ tl.horizon := by
  obtain ⟨s, hs, hst, _⟩ := hfree
  have := tiles_bounds h s hs
  rw [Slot.contains_iff] at hst
  omega

/-- Where no slot crosses the borders of a window, a slot is inside the window or shares no second
with it, so taking resources out of the slots inside takes them out of the window. -/
theorem freeIn_map_occupy {first last : Int} {slots : List Slot} {resources : OrdinalSet}
    {o : Nat} {t : Int} (hfirst : CutAt first slots) (hlast : CutAt (last + 1) slots) :
    FreeIn (slots.map fun s =>
        if first ≤ s.first ∧ s.last ≤ last then s.occupy resources else s) o t ↔
      FreeIn slots o t ∧ ¬ (first ≤ t ∧ t ≤ last ∧ o ∈ resources) := by
  simp only [FreeIn, List.mem_map]
  constructor
  · rintro ⟨_, ⟨s, hs, rfl⟩, hst, hos⟩
    by_cases hin : first ≤ s.first ∧ s.last ≤ last
    · simp only [hin, if_true, Slot.occupy, OrdinalSet.mem_sdiff, and_self] at hst hos
      exact ⟨⟨s, hs, hst, hos.1⟩, fun h => hos.2 h.2.2⟩
    · simp only [hin, if_false] at hst hos
      refine ⟨⟨s, hs, hst, hos⟩, fun h => hin ?_⟩
      rw [Slot.contains_iff] at hst
      have := hfirst s hs
      have := hlast s hs
      omega
  · rintro ⟨⟨s, hs, hst, hos⟩, hout⟩
    refine ⟨_, ⟨s, hs, rfl⟩, ?_⟩
    by_cases hin : first ≤ s.first ∧ s.last ≤ last
    · simp only [hin, and_self, if_true, Slot.occupy, OrdinalSet.mem_sdiff]
      refine ⟨hst, hos, fun hr => hout ?_⟩
      rw [Slot.contains_iff] at hst
      exact ⟨by omega, by omega, hr⟩
    · simp only [hin, if_false]
      exact ⟨hst, hos⟩

theorem free_occupy {tl : Timeline} (h : tl.WellFormed) {first last : Int}
    {resources : OrdinalSet} {o : Nat} {t : Int} :
    (tl.occupy first last resources).Free o t ↔
      tl.Free o t ∧ ¬ (first ≤ t ∧ t ≤ last ∧ o ∈ resources) := by
  by_cases hnone : min last tl.horizon < max first tl.origin ∨ resources.isEmpty
  · simp only [occupy, hnone, if_true, iff_self_and]
    intro hfree hin
    have := bounds_of_free h hfree
    rcases hnone with hwindow | hempty
    · omega
    · exact OrdinalSet.isEmpty_iff.1 hempty o hin.2.2
  · simp only [occupy, hnone, if_false, Free]
    rw [freeIn_map_occupy (cutAt_splitSlots_of_cutAt cutAt_splitSlots) cutAt_splitSlots,
      freeIn_splitSlots, freeIn_splitSlots]
    refine and_congr_right fun hfree => ?_
    have := bounds_of_free h hfree
    constructor <;> intro hout hin <;> exact hout ⟨by omega, by omega, hin.2.2⟩

end Occupying

section Asking

theorem mem_foldl_inter {sets : List OrdinalSet} {s : OrdinalSet} {o : Nat} :
    o ∈ sets.foldl (· ∩ ·) s ↔ o ∈ s ∧ ∀ q ∈ sets, o ∈ q := by
  induction sets generalizing s with
  | nil => simp
  | cons q rest ih =>
      simp only [List.foldl_cons, ih, OrdinalSet.mem_inter, List.forall_mem_cons, and_assoc]

theorem mem_interAll {sets : List OrdinalSet} {o : Nat} :
    o ∈ interAll sets ↔ sets ≠ [] ∧ ∀ q ∈ sets, o ∈ q := by
  cases sets with
  | nil => simp [interAll]
  | cons s rest => simp [interAll, mem_foldl_inter]

theorem mem_freeOver {tl : Timeline} (h : tl.WellFormed) {first last : Int} {o : Nat} :
    o ∈ tl.freeOver first last ↔
      tl.origin ≤ first ∧ first ≤ last ∧ last ≤ tl.horizon ∧
        ∀ t, first ≤ t → t ≤ last → tl.Free o t := by
  by_cases hout : first < tl.origin ∨ tl.horizon < last ∨ last < first
  · simp only [freeOver, hout, if_true, OrdinalSet.not_mem_empty, false_iff]
    omega
  · simp only [freeOver, hout, if_false, mem_interAll, freeSets, List.mem_map, List.mem_filter,
      Bool.and_eq_true, decide_eq_true_eq, ne_eq, List.map_eq_nil_iff]
    constructor
    · rintro ⟨_, hall⟩
      refine ⟨by omega, by omega, by omega, fun t hfirst hlast => ?_⟩
      obtain ⟨s, hs, hst⟩ := exists_slot_of_tiles h (t := t) (by omega) (by omega)
      refine ⟨s, hs, hst, hall _ ⟨s, ⟨hs, ?_⟩, rfl⟩⟩
      rw [Slot.contains_iff] at hst
      omega
    · rintro ⟨_, _, _, hall⟩
      constructor
      · intro hnone
        obtain ⟨s, hs, hst⟩ := exists_slot_of_tiles h (t := first) (by omega) (by omega)
        rw [Slot.contains_iff] at hst
        have hmem : s ∈ tl.slots.filter fun s => s.first ≤ last && first ≤ s.last := by
          simp only [List.mem_filter, Bool.and_eq_true, decide_eq_true_eq]
          exact ⟨hs, by omega, by omega⟩
        rw [hnone] at hmem
        cases hmem
      · rintro _ ⟨s, ⟨hs, hmeets⟩, rfl⟩
        -- A second that the slot shares with the window; the slot that is free there is this one.
        have hbounds := tiles_bounds h s hs
        obtain ⟨q, hq, hqt, hoq⟩ := hall (max first s.first) (by omega) (by omega)
        have hst : s.contains (max first s.first) = true := Slot.contains_iff.2 (by omega)
        rw [slot_unique_of_tiles h hs hq hst hqt]
        exact hoq

end Asking

end Timeline
end ClusterPlan
