import Mathlib.Data.Finset.Max
import ClusterPlan.Proofs.Lists
import ClusterPlan.Quota.Ledger

/-!
What a check of the quota ledger says about single seconds. The weight of claims at an instant grows
with the claims, and the peak over a window bounds it at each second of the window.
-/

namespace ClusterPlan

namespace Number

theorem total_le_of_sublist {l m : List Nat} (h : l.Sublist m) : total l ≤ total m := by
  induction h with
  | slnil => exact le_refl _
  | cons n _ ih => exact ih.trans (Nat.le_add_left _ _)
  | cons_cons n _ ih => exact Nat.add_le_add_left ih n

end Number

namespace Ledger

variable {d : Dimension} {claims others : List Claim} {first last t : Int}

theorem weightAt_append (d : Dimension) (claims others : List Claim) (t : Int) :
    weightAt d (claims ++ others) t = weightAt d claims t + weightAt d others t := by
  simp only [weightAt, List.filter_append, List.map_append, Number.total_append]

theorem weightAt_le_of_sublist (d : Dimension) (h : claims.Sublist others) (t : Int) :
    weightAt d claims t ≤ weightAt d others t :=
  Number.total_le_of_sublist ((h.filter _).map _)

theorem weightAt_singleton_le (d : Dimension) (c : Claim) (t : Int) :
    weightAt d [c] t ≤ c.weight d := by
  cases hheld : c.heldAt t with
  | true => simp [weightAt, hheld, Number.total]
  | false => simp [weightAt, hheld, Number.total]

theorem foldl_max_le_iff {ns : List Nat} {bound cap : Nat} :
    ns.foldl max bound ≤ cap ↔ bound ≤ cap ∧ ∀ n ∈ ns, n ≤ cap := by
  induction ns generalizing bound with
  | nil => simp
  | cons m rest ih => simp only [List.foldl_cons, ih, max_le_iff, List.forall_mem_cons, and_assoc]

/-- Of the seconds at which the peak is looked for, the last one up to `t` sees all that is held
at `t`. -/
theorem exists_start_before (claims : List Claim) (hfirst : first ≤ t) (hlast : t ≤ last) :
    ∃ u ∈ first :: (claims.map Claim.first).filter fun u => first < u && u ≤ last,
      ∀ c ∈ claims, c.heldAt t → c.heldAt u := by
  let starts := first :: (claims.map Claim.first).filter fun u => first < u && u ≤ last
  obtain ⟨u, hu, hmax⟩ :=
    (starts.filter fun u => u ≤ t).toFinset.exists_max_image id
      ⟨first, by simp [starts, hfirst]⟩
  simp only [List.mem_toFinset, List.mem_filter, decide_eq_true_eq, id] at hu hmax
  refine ⟨u, hu.1, fun c hc hheld => ?_⟩
  simp only [Claim.heldAt, Bool.and_eq_true, decide_eq_true_eq] at hheld ⊢
  have hfirstLe : first ≤ u := hmax first ⟨List.mem_cons_self, hfirst⟩
  refine ⟨?_, hu.2.trans hheld.2⟩
  -- A claim that starts inside the window is among the starts.
  by_cases hinside : first < c.first
  · refine hmax c.first ⟨List.mem_cons_of_mem _ ?_, hheld.1⟩
    simp only [List.mem_filter, List.mem_map, Bool.and_eq_true, decide_eq_true_eq]
    exact ⟨⟨c, hc, rfl⟩, hinside, hheld.1.trans hlast⟩
  · exact (not_lt.1 hinside).trans hfirstLe

theorem weightAt_le_peak (d : Dimension) (claims : List Claim) (hfirst : first ≤ t)
    (hlast : t ≤ last) : weightAt d claims t ≤ peak d claims first last := by
  obtain ⟨u, hu, hheld⟩ := exists_start_before claims hfirst hlast
  calc weightAt d claims t
      ≤ weightAt d claims u :=
        Number.total_le_of_sublist ((filter_sublist_filter hheld).map _)
    _ ≤ peak d claims first last := (foldl_max_le_iff.1 le_rfl).2 _ (List.mem_map_of_mem hu)

/-- What counts at a second of the window meets the window. -/
theorem weightAt_counted (l : Ledger) (k : RuleKey) (c : Claimant) (d : Dimension)
    (hfirst : first ≤ t) (hlast : t ≤ last) :
    weightAt d (l.counted k c first last) t =
      weightAt d ((l.claims.map (·.2)).filter fun claim => k.countsWith c claim.claimant) t := by
  simp only [weightAt, counted, List.filter_filter]
  congr 2
  refine List.filter_congr fun claim _ => ?_
  cases hheld : claim.heldAt t with
  | false => simp
  | true =>
      simp only [Claim.heldAt, Bool.and_eq_true, decide_eq_true_eq] at hheld
      have hmeets : claim.meets first last = true := by
        simp only [Claim.meets, Bool.and_eq_true, decide_eq_true_eq]
        omega
      simp [hmeets]

theorem enforced_congr {l l' : Ledger} (h : l.rules = l'.rules) : l.enforced = l'.enforced := by
  funext c d
  simp only [enforced, matching, h]

theorem refusal?_eq_none_iff {l : Ledger} {new : Claim} :
    l.refusal? new = none ↔
      ∀ d, ∀ r ∈ l.enforced new.claimant d, ∀ cap, r.caps.get d = some cap →
        l.usage r.key d new ≤ cap := by
  have hallows : ∀ d r, l.allows d new r = true ↔
      ∀ cap, r.caps.get d = some cap → l.usage r.key d new ≤ cap := fun d r => by
    rw [allows]
    split <;> simp [*]
  simp only [refusal?, List.find?_eq_none, Dimension.mem_all, forall_true_left, Bool.not_eq_true,
    Bool.not_eq_false', List.all_eq_true, hallows]

/-- A claim that is not refused keeps every enforced rule at each second of its window. -/
theorem weightAt_le_of_refusal? {l : Ledger} {new : Claim} {r : CappedRule} {cap : Nat}
    (h : l.refusal? new = none) (hd : d = .units ∨ d = .jobs)
    (hr : r ∈ l.enforced new.claimant d) (hcap : r.caps.get d = some cap)
    (hfirst : new.first ≤ t) (hlast : t ≤ new.last) :
    weightAt d
      ((l.claims.map (·.2) ++ [new]).filter fun c => r.key.countsWith new.claimant c.claimant) t ≤
      cap := by
  have hkept := refusal?_eq_none_iff.1 h d r hr cap hcap
  have husage : l.usage r.key d new =
      peak d (l.counted r.key new.claimant new.first new.last) new.first new.last +
        new.weight d := by
    rcases hd with rfl | rfl <;> rfl
  calc weightAt d _ t
      = weightAt d
          ((l.claims.map (·.2)).filter fun c => r.key.countsWith new.claimant c.claimant) t +
        weightAt d ([new].filter fun c => r.key.countsWith new.claimant c.claimant) t := by
          rw [List.filter_append, weightAt_append]
    _ ≤ peak d (l.counted r.key new.claimant new.first new.last) new.first new.last +
        new.weight d := by
          refine Nat.add_le_add ?_ ?_
          · rw [← weightAt_counted l r.key new.claimant d hfirst hlast]
            exact weightAt_le_peak d _ hfirst hlast
          · exact (weightAt_le_of_sublist d List.filter_sublist t).trans
              (weightAt_singleton_le d new t)
    _ ≤ cap := husage ▸ hkept

end Ledger
end ClusterPlan
