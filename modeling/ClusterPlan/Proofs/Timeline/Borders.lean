import ClusterPlan.Proofs.Timeline.Occupations

/-!
Where slots begin. Borders are more than free sets tell: a window cuts the timeline even where it
takes nothing that is free, and every border is a start worth trying. Borders and free seconds
together are all there is to a timeline, so occupations in any order, one by one or several
resources at a time, leave the same slots.
-/

namespace ClusterPlan.Timeline

/-- A slot begins at `u`. -/
def BorderIn (slots : List Slot) (u : Int) : Prop := ∃ s ∈ slots, s.first = u

section Canonical

variable {first last : Int} {s q : Slot} {slots rest rest' : List Slot} {o : Nat} {t u : Int}

theorem freeIn_iff_of_tiles (h : Tiles first last slots) (hs : s ∈ slots)
    (hst : s.contains t = true) : FreeIn slots o t ↔ o ∈ s.free := by
  constructor
  · rintro ⟨q, hq, hqt, hoq⟩
    rwa [slot_unique_of_tiles h hq hs hqt hst] at hoq
  · exact fun ho => ⟨s, hs, hst, ho⟩

theorem borderIn_tail_iff (h : Tiles first last (s :: rest)) :
    BorderIn rest u ↔ BorderIn (s :: rest) u ∧ s.last < u := by
  obtain ⟨_, hle, _, hrest⟩ := h
  simp only [BorderIn, List.mem_cons, exists_eq_or_imp]
  constructor
  · rintro ⟨q, hq, rfl⟩
    have := tiles_bounds hrest q hq
    exact ⟨Or.inr ⟨q, hq, rfl⟩, by omega⟩
  · rintro ⟨hfirst | hborder, hu⟩
    · omega
    · exact hborder

theorem freeIn_tail_iff (h : Tiles first last (s :: rest)) :
    FreeIn rest o t ↔ FreeIn (s :: rest) o t ∧ s.last < t := by
  obtain ⟨_, _, _, hrest⟩ := h
  simp only [FreeIn, List.mem_cons, exists_eq_or_imp]
  constructor
  · rintro ⟨q, hq, hqt, ho⟩
    have := tiles_bounds hrest q hq
    exact ⟨Or.inr ⟨q, hq, hqt, ho⟩, by rw [Slot.contains_iff] at hqt; omega⟩
  · rintro ⟨⟨hst, _⟩ | hfree, ht⟩
    · rw [Slot.contains_iff] at hst
      omega
    · exact hfree

/-- Where a slot ends before the end of the tiling, the next one begins. -/
theorem borderIn_last_succ (h : Tiles first last (s :: rest)) (hlt : s.last < last) :
    BorderIn (s :: rest) (s.last + 1) := by
  obtain ⟨_, _, _, hrest⟩ := h
  cases rest with
  | nil =>
      simp only [Tiles] at hrest
      omega
  | cons q rest => exact ⟨q, by simp, hrest.1⟩

/-- The first slot reaches at least as far as in a tiling that has its borders. -/
theorem last_le_of_borders (h : Tiles first last (s :: rest)) (h' : Tiles first last (q :: rest'))
    (hborders : ∀ u, BorderIn (s :: rest) u → BorderIn (q :: rest') u) : q.last ≤ s.last := by
  by_cases hlt : s.last < q.last
  · have hlast : q.last ≤ last := h'.2.2.1
    obtain ⟨p, hp, hpfirst⟩ := hborders _ (borderIn_last_succ h (by omega))
    obtain ⟨hs, hle, _, _⟩ := h
    obtain ⟨hq, _, _, hrest'⟩ := h'
    rcases List.mem_cons.1 hp with rfl | hp
    · omega
    · have := tiles_bounds hrest' p hp
      omega
  · omega

/-- A tiling is determined by its borders and by what is free at each second. -/
theorem slots_eq_of_tiles {slots' : List Slot} (h : Tiles first last slots)
    (h' : Tiles first last slots') (hborders : ∀ u, BorderIn slots u ↔ BorderIn slots' u)
    (hfree : ∀ o t, FreeIn slots o t ↔ FreeIn slots' o t) : slots = slots' := by
  induction slots generalizing first slots' with
  | nil =>
      cases slots' with
      | nil => rfl
      | cons q rest' =>
          obtain ⟨p, hp, _⟩ := (hborders q.first).2 ⟨q, by simp, rfl⟩
          cases hp
  | cons s rest ih =>
      cases slots' with
      | nil =>
          obtain ⟨p, hp, _⟩ := (hborders s.first).1 ⟨s, by simp, rfl⟩
          cases hp
      | cons q rest' =>
          have hfirst : s.first = q.first := h.1.trans h'.1.symm
          have hlast : s.last = q.last :=
            Int.le_antisymm (last_le_of_borders h' h fun u => (hborders u).2)
              (last_le_of_borders h h' fun u => (hborders u).1)
          have hs : s.contains s.first = true := Slot.contains_iff.2 ⟨Int.le_refl _, h.2.1⟩
          have hq : q.contains s.first = true :=
            Slot.contains_iff.2 ⟨by omega, by have := h.2.1; omega⟩
          have hset : s.free = q.free := OrdinalSet.ext_mem fun o => by
            rw [← freeIn_iff_of_tiles h (by simp) hs, hfree, freeIn_iff_of_tiles h' (by simp) hq]
          have hsq : s = q := by
            cases s
            cases q
            simp_all only
          subst hsq
          rw [ih h.2.2.2 h'.2.2.2 ?_ ?_]
          · intro u
            rw [borderIn_tail_iff h, borderIn_tail_iff h', hborders]
          · intro o t
            rw [freeIn_tail_iff h, freeIn_tail_iff h', hfree]

end Canonical

section Borders

variable {first last t u : Int} {slots : List Slot}

theorem borderIn_splitSlots (h : Tiles first last slots) :
    BorderIn (splitSlots t slots) u ↔ BorderIn slots u ∨ u = t ∧ first ≤ t ∧ t ≤ last := by
  constructor
  · rintro ⟨s, hs, rfl⟩
    obtain ⟨q, hq, _, hborders⟩ := mem_splitSlots hs
    have := tiles_bounds h q hq
    rcases hborders with ⟨hfirst, _, _⟩ | ⟨_, _, hfirst, _⟩ | ⟨_, _, hfirst, _⟩
    · exact Or.inl ⟨q, hq, hfirst.symm⟩
    · exact Or.inl ⟨q, hq, hfirst.symm⟩
    · exact Or.inr ⟨hfirst, by omega, by omega⟩
  · simp only [BorderIn, splitSlots, List.mem_flatMap, Slot.splitAt?]
    rintro (⟨q, hq, rfl⟩ | ⟨rfl, hfirst, hlast⟩)
    · by_cases hout : t ≤ q.first ∨ q.last < t
      · exact ⟨q, ⟨q, hq, by simp [hout]⟩, rfl⟩
      · exact ⟨{ q with last := t - 1 }, ⟨q, hq, by simp [hout]⟩, rfl⟩
    · obtain ⟨q, hq, hqu⟩ := exists_slot_of_tiles h hfirst hlast
      rw [Slot.contains_iff] at hqu
      by_cases hout : u ≤ q.first ∨ q.last < u
      · exact ⟨q, ⟨q, hq, by simp [hout]⟩, by omega⟩
      · exact ⟨{ q with first := u }, ⟨q, hq, by simp [hout]⟩, rfl⟩

theorem borderIn_map_occupy (p : Slot → Prop) [DecidablePred p] (resources : OrdinalSet) :
    BorderIn (slots.map fun s => if p s then s.occupy resources else s) u ↔ BorderIn slots u := by
  simp only [BorderIn, List.mem_map]
  have hfirst : ∀ s : Slot, (if p s then s.occupy resources else s).first = s.first := by
    intro s
    split <;> rfl
  constructor
  · rintro ⟨_, ⟨s, hs, rfl⟩, hu⟩
    exact ⟨s, hs, (hfirst s).symm.trans hu⟩
  · rintro ⟨s, hs, hu⟩
    exact ⟨_, ⟨s, hs, rfl⟩, (hfirst s).trans hu⟩

/-- The seconds at which a window cuts a timeline: its first second on it and the one after its
last. -/
def Cuts (tl : Timeline) (first last u : Int) : Prop :=
  max first tl.origin ≤ min last tl.horizon ∧
    (u = max first tl.origin ∨ u = min last tl.horizon + 1 ∧ u ≤ tl.horizon)

theorem borderIn_occupy {tl : Timeline} (h : tl.WellFormed) {resources : OrdinalSet} :
    BorderIn (tl.occupy first last resources).slots u ↔
      BorderIn tl.slots u ∨ (∃ o, o ∈ resources) ∧ tl.Cuts first last u := by
  by_cases hnone : min last tl.horizon < max first tl.origin ∨ resources.isEmpty
  · simp only [occupy, hnone, if_true]
    refine ⟨Or.inl, ?_⟩
    rintro (hborder | ⟨⟨o, ho⟩, hwindow, _⟩)
    · exact hborder
    · rcases hnone with hnone | hempty
      · omega
      · exact absurd ho (OrdinalSet.isEmpty_iff.1 hempty o)
  · simp only [occupy, hnone, if_false]
    rw [borderIn_map_occupy, borderIn_splitSlots (tiles_splitSlots h), borderIn_splitSlots h,
      or_assoc]
    have hmember : ∃ o, o ∈ resources := by
      by_cases hall : ∀ o, o ∉ resources
      · exact absurd (Or.inr (OrdinalSet.isEmpty_iff.2 hall)) hnone
      · simpa using hall
    refine or_congr Iff.rfl ?_
    simp only [Cuts]
    constructor
    · intro hcut
      exact ⟨hmember, by omega, by omega⟩
    · rintro ⟨_, hcut⟩
      omega

/-- Some call takes a resource over exactly this window. -/
def Takes (calls : List Occupation) (first last : Int) (o : Nat) : Prop :=
  ∃ c ∈ calls, c.first = first ∧ c.last = last ∧ o ∈ c.resources

theorem takes_cons {c : Occupation} {calls : List Occupation} {o : Nat} :
    Takes (c :: calls) first last o ↔
      (c.first = first ∧ c.last = last ∧ o ∈ c.resources) ∨ Takes calls first last o := by
  simp [Takes]

theorem takes_append {calls later : List Occupation} {o : Nat} :
    Takes (calls ++ later) first last o ↔ Takes calls first last o ∨ Takes later first last o := by
  simp [Takes, or_and_right, exists_or]

theorem takes_of_perm {calls calls' : List Occupation} (h : calls.Perm calls') {o : Nat} :
    Takes calls first last o ↔ Takes calls' first last o := by
  simp [Takes, h.mem_iff]

theorem borderIn_occupyAll {tl : Timeline} (h : tl.WellFormed) {calls : List Occupation} :
    BorderIn (tl.occupyAll calls).slots u ↔
      BorderIn tl.slots u ∨ ∃ first last o, Takes calls first last o ∧ tl.Cuts first last u := by
  induction calls generalizing tl with
  | nil => simp [Takes]
  | cons c rest ih =>
      rw [occupyAll_cons, ih (wellFormed_occupy h _ _ _), borderIn_occupy h, or_assoc]
      refine or_congr Iff.rfl ?_
      simp only [Cuts, occupy_origin, occupy_horizon, takes_cons]
      constructor
      · rintro (⟨⟨o, ho⟩, hcut⟩ | ⟨first, last, o, htakes, hcut⟩)
        · exact ⟨_, _, o, Or.inl ⟨rfl, rfl, ho⟩, hcut⟩
        · exact ⟨first, last, o, Or.inr htakes, hcut⟩
      · rintro ⟨first, last, o, ⟨rfl, rfl, ho⟩ | htakes, hcut⟩
        · exact Or.inl ⟨⟨o, ho⟩, hcut⟩
        · exact Or.inr ⟨first, last, o, htakes, hcut⟩

theorem free_occupyAll_iff_takes {tl : Timeline} (h : tl.WellFormed) {calls : List Occupation}
    {o : Nat} : (tl.occupyAll calls).Free o t ↔
      tl.Free o t ∧ ∀ first last, Takes calls first last o → ¬ (first ≤ t ∧ t ≤ last) := by
  rw [free_occupyAll h]
  refine and_congr_right fun _ => ⟨?_, ?_⟩
  · rintro hcalls _ _ ⟨c, hc, rfl, rfl, ho⟩ ⟨hfirst, hlast⟩
    exact hcalls c hc ⟨hfirst, hlast, ho⟩
  · rintro htakes c hc ⟨hfirst, hlast, ho⟩
    exact htakes _ _ ⟨c, hc, rfl, rfl, ho⟩ ⟨hfirst, hlast⟩

/-- Calls that take the same resources over the same windows leave the same timeline. -/
theorem occupyAll_congr {tl : Timeline} (h : tl.WellFormed) {calls calls' : List Occupation}
    (hsame : ∀ first last o, Takes calls first last o ↔ Takes calls' first last o) :
    tl.occupyAll calls = tl.occupyAll calls' := by
  have htiles := wellFormed_occupyAll h calls
  have htiles' := wellFormed_occupyAll h calls'
  simp only [WellFormed, occupyAll_origin, occupyAll_horizon] at htiles htiles'
  have hslots : (tl.occupyAll calls).slots = (tl.occupyAll calls').slots := by
    refine slots_eq_of_tiles htiles htiles' (fun u => ?_) fun o t => ?_
    · simp only [borderIn_occupyAll h, hsame]
    · exact (free_occupyAll_iff_takes h).trans
        (by simp only [hsame]; exact (free_occupyAll_iff_takes h).symm)
  have horigin := occupyAll_origin tl calls
  have hhorizon := occupyAll_horizon tl calls
  have horigin' := occupyAll_origin tl calls'
  have hhorizon' := occupyAll_horizon tl calls'
  cases htl : tl.occupyAll calls
  cases htl' : tl.occupyAll calls'
  simp_all only

end Borders
end ClusterPlan.Timeline
