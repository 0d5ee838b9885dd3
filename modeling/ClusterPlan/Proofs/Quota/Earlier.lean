import ClusterPlan.Proofs.Quota.Exactness

/-!
Claims that begin earlier. What counts at a second of the earlier window counts later too, unless it ends
in between. So a claim that is accepted would be accepted earlier as well, if it takes no more there and
nothing ends in between.
-/

namespace ClusterPlan

namespace Number

variable {α : Type} {p q : α → Bool} {w : α → Nat} {x : α} {xs : List α}

theorem total_filter_cons (p : α → Bool) (w : α → Nat) (x : α) (xs : List α) :
    total (((x :: xs).filter p).map w) =
      (if p x = true then w x else 0) + total ((xs.filter p).map w) := by
  rw [List.filter_cons]
  split
  · rfl
  · rw [Nat.zero_add]

/-- What weighs nothing may be left out. -/
theorem total_filter_le (h : ∀ x ∈ xs, p x = true → q x = true ∨ w x = 0) :
    total ((xs.filter p).map w) ≤ total ((xs.filter q).map w) := by
  induction xs with
  | nil => exact le_rfl
  | cons x rest ih =>
      obtain ⟨hx, hrest⟩ := List.forall_mem_cons.1 h
      rw [total_filter_cons, total_filter_cons]
      refine Nat.add_le_add ?_ (ih hrest)
      by_cases hp : p x = true
      · rcases hx hp with hq | hw
        · rw [if_pos hp, if_pos hq]
        · rw [if_pos hp, hw]
          exact Nat.zero_le _
      · rw [if_neg hp]
        exact Nat.zero_le _

end Number

/-- The first claim takes no more than the second one, begins no later and ends no later. -/
structure Claim.Precedes (early late : Claim) : Prop where
  claimant : early.claimant = late.claimant
  units : early.units ≤ late.units
  unitSeconds : early.unitSeconds ≤ late.unitSeconds
  first : early.first ≤ late.first
  last : early.last ≤ late.last

namespace Ledger

variable {l : Ledger} {early late : Claim}

/-- No claim ends from `first` on, but before `upto`. -/
def Settled (l : Ledger) (first upto : Int) : Prop :=
  ∀ e ∈ l.claims, e.2.first ≤ e.2.last → e.2.last < upto → e.2.last < first

theorem peak_counted_le (h : early.Precedes late) (hearly : early.first ≤ early.last)
    (hlate : late.first ≤ late.last) (hsettled : l.Settled early.first late.first) (k : RuleKey)
    (d : Dimension) :
    peak d (l.counted k early.claimant early.first early.last) early.first early.last ≤
      peak d (l.counted k late.claimant late.first late.last) late.first late.last := by
  refine (peak_le_iff hearly).2 fun t hfirst hlast => ?_
  -- What is held before the later window begins is still held when it begins.
  have hinside : late.first ≤ max t late.first ∧ max t late.first ≤ late.last := by
    have := h.last
    omega
  refine le_trans ?_ (weightAt_le_peak d _ hinside.1 hinside.2)
  rw [weightAt_counted l k _ d hfirst hlast, weightAt_counted l k _ d hinside.1 hinside.2, h.claimant]
  refine Number.total_le_of_sublist ((filter_sublist_filter fun c hc hheld => ?_).map _)
  obtain ⟨e, he, rfl⟩ := List.mem_map.1 (List.mem_filter.1 hc).1
  simp only [Claim.heldAt, Bool.and_eq_true, decide_eq_true_eq] at hheld ⊢
  have := hsettled e he (by omega)
  omega

theorem usage_le_of_precedes (h : early.Precedes late) (hearly : early.first ≤ early.last)
    (hlate : late.first ≤ late.last) (hsettled : l.Settled early.first late.first) (k : RuleKey)
    (d : Dimension) : l.usage k d early ≤ l.usage k d late := by
  cases d with
  | units =>
      exact Nat.add_le_add (peak_counted_le h hearly hlate hsettled k .units) h.units
  | jobs => exact Nat.add_le_add_right (peak_counted_le h hearly hlate hsettled k .jobs) _
  | unitTime =>
      refine Nat.add_le_add (Number.total_filter_le fun c hc hcounts => ?_) h.unitSeconds
      obtain ⟨e, he, rfl⟩ := List.mem_map.1 hc
      simp only [Claim.meets, Bool.and_eq_true, decide_eq_true_eq, h.claimant] at hcounts ⊢
      by_cases hproper : e.2.first ≤ e.2.last
      · have := hsettled e he hproper
        have := h.last
        exact Or.inl ⟨hcounts.1, by omega, by omega⟩
      · refine Or.inr ?_
        rw [Claim.unitSeconds, Int.toNat_of_nonpos (by omega), Nat.mul_zero]

/-- A claim that is accepted would be accepted earlier, if no claim ends in between. -/
theorem accepted_of_precedes (h : early.Precedes late) (hearly : early.first ≤ early.last)
    (hlate : late.first ≤ late.last) (hsettled : l.Settled early.first late.first)
    (haccepted : l.refusal? late = none) : l.refusal? early = none := by
  rw [refusal?_eq_none_iff] at haccepted ⊢
  intro d r hr cap hcap
  rw [h.claimant] at hr
  exact (usage_le_of_precedes h hearly hlate hsettled r.key d).trans (haccepted d r hr cap hcap)

end Ledger
end ClusterPlan
