import Mathlib.Algebra.GroupWithZero.Nat
import ClusterPlan.Proofs.Quota.Usage

/-!
What a check of the quota ledger decides. Each rule keeps one counter for all values, or one for each
value where it says so, and the check accepts a claim exactly when no governing rule is exceeded on the
claimant's counter: at any second of the window for resources and jobs, in sum for resource time. That
the check looks at a few seconds only, and tells rules and counters in its own way, makes no difference.
-/

namespace ClusterPlan

theorem Number.total_eq_sum (ns : List Nat) : total ns = ns.sum := by
  induction ns with
  | nil => rfl
  | cons n rest ih => rw [total, ih, List.sum_cons]

namespace RuleKey

variable {k : RuleKey} {c c' other : Claimant}

/-- The claims of `other` are on the counter that the rule keeps for `c`: the rule is about `other`,
which agrees with `c` wherever the rule counts every value by itself. -/
structure SharesCounter (k : RuleKey) (c other : Claimant) : Prop where
  accepted : k.accepts other
  queue : k.queue = .each → other.queue = c.queue
  project : k.project = .each → other.project = c.project
  jobType : k.jobType = .each → other.jobType = c.jobType
  user : k.user = .each → other.user = c.user

theorem countsWith_iff : k.countsWith c other ↔ k.SharesCounter c other := by
  have hfield : ∀ (f : KeyField) (v w : String),
      (f != .each || v == w) = true ↔ (f = .each → v = w) := fun f v w => by
    rw [Bool.or_eq_true, bne_iff_ne, beq_iff_eq, ← imp_iff_not_or]
  simp only [countsWith, fields, Claimant.values, List.zip_cons_cons, List.zip_nil_left,
    List.all_cons, List.all_nil, Bool.and_true, Bool.and_eq_true, hfield]
  constructor
  · rintro ⟨haccepted, hqueue, hproject, hjobType, huser⟩
    exact ⟨haccepted, hqueue, hproject, hjobType, huser⟩
  · rintro ⟨haccepted, hqueue, hproject, hjobType, huser⟩
    exact ⟨haccepted, hqueue, hproject, hjobType, huser⟩

instance (k : RuleKey) (c other : Claimant) : Decidable (k.SharesCounter c other) :=
  decidable_of_iff _ countsWith_iff

/-- Claimants on one counter have the same counter. -/
theorem SharesCounter.comm_left (h : k.SharesCounter c c') :
    k.SharesCounter c' other ↔ k.SharesCounter c other where
  mp h' :=
    { accepted := h'.accepted
      queue := fun heach => (h'.queue heach).trans (h.queue heach)
      project := fun heach => (h'.project heach).trans (h.project heach)
      jobType := fun heach => (h'.jobType heach).trans (h.jobType heach)
      user := fun heach => (h'.user heach).trans (h.user heach) }
  mpr h' :=
    { accepted := h'.accepted
      queue := fun heach => (h'.queue heach).trans (h.queue heach).symm
      project := fun heach => (h'.project heach).trans (h.project heach).symm
      jobType := fun heach => (h'.jobType heach).trans (h.jobType heach).symm
      user := fun heach => (h'.user heach).trans (h.user heach).symm }

end RuleKey

namespace Ledger

variable {l : Ledger} {k : RuleKey} {c : Claimant} {d : Dimension} {r : CappedRule} {new : Claim}
  {claims : List Claim} {first last t : Int} {cap : Nat}

/-- The claims on the counter that a rule keeps for the claimant. -/
def counter (l : Ledger) (k : RuleKey) (c : Claimant) : List Claim :=
  (l.claims.map (·.2)).filter fun claim => k.SharesCounter c claim.claimant

def counterAt (l : Ledger) (k : RuleKey) (c : Claimant) (t : Int) : List Claim :=
  (l.counter k c).filter fun claim => claim.first ≤ t ∧ t ≤ claim.last

/-- The rule governs a dimension for the claimant: it accepts the claimant and bounds the dimension,
and no rule that does both is more specific. -/
structure Governs (l : Ledger) (c : Claimant) (d : Dimension) (r : CappedRule) (cap : Nat) :
    Prop where
  mem : r ∈ l.rules
  accepts : r.key.accepts c
  bounds : r.caps.get d = some cap
  top : ∀ s ∈ l.rules, s.key.accepts c → (s.caps.get d).isSome →
    s.key.specificity ≤ r.key.specificity

/-- Added to its counter under a rule, the claim stays within the cap: at each second of its window for
what is counted at an instant, in sum over the claims that overlap the window for resource time. -/
def KeepsWithin (l : Ledger) (new : Claim) (k : RuleKey) (cap : Nat) : Dimension → Prop
  | .units => ∀ t, new.first ≤ t → t ≤ new.last →
      ((l.counterAt k new.claimant t).map fun claim => claim.units).sum + new.units ≤ cap
  | .jobs => ∀ t, new.first ≤ t → t ≤ new.last →
      (l.counterAt k new.claimant t).length + 1 ≤ cap
  | .unitTime =>
      let overlapping := (l.counter k new.claimant).filter fun claim =>
        claim.first ≤ new.last ∧ new.first ≤ claim.last
      (overlapping.map fun claim => claim.units * (claim.last - claim.first + 1).toNat).sum +
        new.units * (new.last - new.first + 1).toNat ≤ cap

theorem counter_eq (l : Ledger) (k : RuleKey) (c : Claimant) :
    l.counter k c = (l.claims.map (·.2)).filter fun claim => k.countsWith c claim.claimant :=
  List.filter_congr fun _ _ => Bool.eq_iff_iff.2 (by rw [decide_eq_true_eq, RuleKey.countsWith_iff])

theorem filter_heldAt_counter (l : Ledger) (k : RuleKey) (c : Claimant) (t : Int) :
    ((l.claims.map (·.2)).filter fun claim => k.countsWith c claim.claimant).filter (·.heldAt t) =
      l.counterAt k c t := by
  rw [← counter_eq, counterAt]
  exact List.filter_congr fun claim _ => by rw [Claim.heldAt, Bool.decide_and]

/-- The enforced rules, with what they bound, are the governing ones. -/
theorem governs_iff :
    l.Governs c d r cap ↔ r ∈ l.enforced c d ∧ r.caps.get d = some cap := by
  simp only [enforced, matching, List.mem_filter, List.all_eq_true, Bool.and_eq_true,
    decide_eq_true_eq, and_imp]
  constructor
  · rintro ⟨hmem, haccepts, hbounds, htop⟩
    exact ⟨⟨⟨hmem, by rw [hbounds]; rfl, haccepts⟩, fun s hs hsbounds hsaccepts =>
      htop s hs hsaccepts hsbounds⟩, hbounds⟩
  · rintro ⟨⟨⟨hmem, -, haccepts⟩, htop⟩, hbounds⟩
    exact ⟨hmem, haccepts, hbounds, fun s hs hsaccepts hsbounds => htop s hs hsbounds hsaccepts⟩

/-- The peak is looked for at seconds of the window, and it is found at one of them. -/
theorem peak_le_iff (hwindow : first ≤ last) :
    peak d claims first last ≤ cap ↔
      ∀ t, first ≤ t → t ≤ last → weightAt d claims t ≤ cap := by
  constructor
  · exact fun h t hfirst hlast => (weightAt_le_peak d claims hfirst hlast).trans h
  · intro h
    refine foldl_max_le_iff.2 ⟨Nat.zero_le _, List.forall_mem_map.2 fun t ht => ?_⟩
    rcases List.mem_cons.1 ht with rfl | ht
    · exact h t le_rfl hwindow
    · have hinside := (List.mem_filter.1 ht).2
      simp only [Bool.and_eq_true, decide_eq_true_eq] at hinside
      exact h t hinside.1.le hinside.2

theorem peak_add_le_iff (l : Ledger) (k : RuleKey) (d : Dimension) (hwindow : new.first ≤ new.last) :
    peak d (l.counted k new.claimant new.first new.last) new.first new.last + new.weight d ≤ cap ↔
      ∀ t, new.first ≤ t → t ≤ new.last →
        ((l.counterAt k new.claimant t).map (Claim.weight d)).sum + new.weight d ≤ cap := by
  have hweight : ∀ t, new.first ≤ t → t ≤ new.last →
      weightAt d (l.counted k new.claimant new.first new.last) t =
        ((l.counterAt k new.claimant t).map (Claim.weight d)).sum := fun t hfirst hlast => by
    rw [weightAt_counted l k new.claimant d hfirst hlast, weightAt, filter_heldAt_counter,
      Number.total_eq_sum]
  rcases Nat.lt_or_ge cap (new.weight d) with hlarge | hsmall
  · -- The claim alone breaks the cap, at the first second already.
    refine iff_of_false (by omega) fun h => ?_
    have := h new.first le_rfl hwindow
    omega
  · rw [← Nat.le_sub_iff_add_le hsmall, peak_le_iff hwindow]
    refine forall_congr' fun t => forall_congr' fun hfirst => forall_congr' fun hlast => ?_
    rw [hweight t hfirst hlast, Nat.le_sub_iff_add_le hsmall]

theorem usage_le_iff (hwindow : new.first ≤ new.last) :
    l.usage k d new ≤ cap ↔ l.KeepsWithin new k cap d := by
  cases d with
  | units => exact peak_add_le_iff l k .units hwindow
  | jobs =>
      refine (peak_add_le_iff l k .jobs hwindow).trans ?_
      have hone : Claim.weight .jobs = fun _ => 1 := rfl
      simp only [hone, List.map_const', List.sum_replicate_nat, Nat.mul_one]
      rfl
  | unitTime =>
      have hcounted : l.counted k new.claimant new.first new.last =
          (l.counter k new.claimant).filter fun claim =>
            claim.first ≤ new.last ∧ new.first ≤ claim.last := by
        rw [counter_eq, counted, List.filter_filter]
        refine List.filter_congr fun claim _ => ?_
        rw [Claim.meets, ← Bool.decide_and, Bool.and_comm]
      rw [usage, hcounted, Number.total_eq_sum]
      rfl

section TwoUsers

def claimBy (user : String) (units : Nat) (first last : Int) : Claim :=
  ⟨⟨"default", "p", "*", user⟩, units, first, last⟩

/-- Every user has three resources. In the default queue two jobs may run at once, which lifts the limit
of one job that holds elsewhere. -/
def twoUsersLedger : Ledger where
  rules :=
    [⟨⟨.any, .any, .any, .each⟩, ⟨some 3, none, none⟩⟩,
      ⟨⟨.exactly "default", .any, .any, .any⟩, ⟨none, some 2, some 100⟩⟩,
      ⟨⟨.any, .any, .any, .any⟩, ⟨none, some 1, none⟩⟩]
  claims := [(0, claimBy "ann" 2 0 9), (1, claimBy "ann" 2 12 19), (2, claimBy "bob" 3 20 29)]
  next := 3

end TwoUsers

end Ledger
end ClusterPlan
