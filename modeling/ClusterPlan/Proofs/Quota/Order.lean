import Mathlib.Data.List.Perm.Basic
import ClusterPlan.Proofs.Quota.Current

/-!
The order of the claims in a ledger, and the numbers under which they were recorded, do not matter to
any check: a check sums weights, takes the largest sum, and compares it with a cap.
-/

namespace ClusterPlan

namespace Number

theorem total_of_perm {l m : List Nat} (h : l.Perm m) : total l = total m := by
  induction h with
  | nil => rfl
  | cons n _ ih => rw [total, total, ih]
  | swap n k rest => simp only [total, Nat.add_left_comm]
  | trans _ _ ih ih' => exact ih.trans ih'

end Number

namespace Ledger

variable {d : Dimension} {claims claims' : List Claim} {l l' : Ledger} {first last t : Int}

theorem weightAt_of_perm (h : claims.Perm claims') : weightAt d claims t = weightAt d claims' t :=
  Number.total_of_perm ((h.filter _).map _)

theorem peak_of_perm (h : claims.Perm claims') :
    peak d claims first last = peak d claims' first last := by
  have hweights : weightAt d claims = weightAt d claims' := funext fun t => weightAt_of_perm h
  rw [peak, peak, hweights]
  exact ((((h.map _).filter _).cons first).map _).foldl_eq 0

theorem counted_of_perm (h : (l.claims.map (·.2)).Perm (l'.claims.map (·.2))) (key : RuleKey)
    (c : Claimant) (first last : Int) :
    (l.counted key c first last).Perm (l'.counted key c first last) :=
  h.filter _

theorem usage_of_perm (h : (l.claims.map (·.2)).Perm (l'.claims.map (·.2))) (key : RuleKey)
    (new : Claim) : l.usage key d new = l'.usage key d new := by
  have hcounted := counted_of_perm h key new.claimant new.first new.last
  cases d with
  | units | jobs => simp only [usage, peak_of_perm hcounted]
  | unitTime => simp only [usage, Number.total_of_perm (hcounted.map _)]

theorem refusal?_of_perm (hrules : l.rules = l'.rules)
    (h : (l.claims.map (·.2)).Perm (l'.claims.map (·.2))) (new : Claim) :
    l.refusal? new = l'.refusal? new :=
  refusal?_congr hrules fun key _ => usage_of_perm h key new

end Ledger
end ClusterPlan
