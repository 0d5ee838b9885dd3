import ClusterPlan.Proofs.Quota.Exactness

/-!
The caps over any sequence of reservations and releases. A check looks at one claim, its window and the
rules enforced for it. What is true of the ledger at any time is that each claim would still be accepted
beside those that were recorded before it, since a release only takes away. Of the claims that are held
at a second, the last one on a counter then answers for all of them.
-/

namespace ClusterPlan

namespace Ledger

variable {l l' : Ledger} {k : RuleKey} {c : Claimant} {d : Dimension} {r : CappedRule} {new : Claim}
  {claims others before : List Claim} {first last t : Int} {cap : Nat}

inductive Call where
  | reserve (new : Claim)
  | release (number : Nat)
  deriving DecidableEq, Repr

/-- The ledger after a call. A claim that is refused leaves it as it is. -/
def call (l : Ledger) : Call → Ledger
  | .reserve new =>
      match l.reserve new with
      | .ok (l', _) => l'
      | .error _ => l
  | .release number => l.release number

def callAll (l : Ledger) (calls : List Call) : Ledger := calls.foldl call l

section Monotone

theorem peak_le_of_sublist (d : Dimension) (h : claims.Sublist others) (first last : Int) :
    peak d claims first last ≤ peak d others first last := by
  refine foldl_max_le_iff.2 ⟨Nat.zero_le _, List.forall_mem_map.2 fun t ht => ?_⟩
  have hstart := (((h.map Claim.first).filter fun t => first < t && t ≤ last).cons_cons first).subset ht
  exact (weightAt_le_of_sublist d h t).trans
    ((foldl_max_le_iff.1 le_rfl).2 _ (List.mem_map_of_mem hstart))

theorem usage_le_of_sublist (h : l.claims.Sublist l'.claims) (k : RuleKey) (d : Dimension)
    (new : Claim) : l.usage k d new ≤ l'.usage k d new := by
  have hcounted : (l.counted k new.claimant new.first new.last).Sublist
      (l'.counted k new.claimant new.first new.last) := (h.map _).filter _
  cases d with
  | units | jobs => exact Nat.add_le_add_right (peak_le_of_sublist _ hcounted _ _) _
  | unitTime =>
      exact Nat.add_le_add_right (Number.total_le_of_sublist (hcounted.map _)) _

/-- What is accepted is accepted beside fewer claims too. -/
theorem accepted_of_sublist (haccepted : l'.refusal? new = none) (hrules : l.rules = l'.rules)
    (h : l.claims.Sublist l'.claims) : l.refusal? new = none := by
  rw [refusal?_eq_none_iff] at haccepted ⊢
  intro d r hr cap hcap
  rw [enforced_congr hrules] at hr
  exact (usage_le_of_sublist h r.key d new).trans (haccepted d r hr cap hcap)

end Monotone

/-- Each claim would be accepted beside those that were recorded before it. -/
def Granted (l : Ledger) : Prop :=
  ∀ front e back, l.claims = front ++ e :: back →
    { l with claims := front }.refusal? e.2 = none

theorem granted_of_empty (h : l.claims = []) : l.Granted := by
  intro front e back hsplit
  rw [h] at hsplit
  simp at hsplit

theorem Granted.record (h : l.Granted) (haccepted : l.refusal? new = none) :
    (l.record new).1.Granted := by
  intro front e back hsplit
  simp only [Ledger.record] at hsplit
  rcases List.eq_nil_or_concat back with rfl | ⟨back, e', rfl⟩
  · obtain ⟨rfl, he⟩ := List.append_inj' hsplit rfl
    cases he
    exact accepted_of_sublist haccepted rfl (List.Sublist.refl _)
  · rw [List.concat_eq_append, ← List.cons_append, ← List.append_assoc] at hsplit
    exact accepted_of_sublist (h front e back (List.append_inj' hsplit rfl).1) rfl
      (List.Sublist.refl _)

theorem Granted.release (h : l.Granted) (number : Nat) : (l.release number).Granted := by
  intro front e back hsplit
  obtain ⟨kept, rest, hclaims, rfl, hrest⟩ := List.filter_eq_append_iff.1 hsplit
  obtain ⟨gone, back, rfl, -, -, -⟩ := List.filter_eq_cons_iff.1 hrest
  have hsublist : (kept.filter fun e => e.1 != number).Sublist (kept ++ gone) :=
    List.filter_sublist.trans (List.sublist_append_left kept gone)
  have hwhole : l.claims = (kept ++ gone) ++ e :: back := by rw [hclaims, List.append_assoc]
  exact accepted_of_sublist (h _ e back hwhole) rfl hsublist

theorem Granted.call (h : l.Granted) (made : Call) : (l.call made).Granted := by
  cases made with
  | reserve new =>
      cases hrefusal : l.refusal? new with
      | none => simpa only [Ledger.call, reserve, hrefusal] using h.record hrefusal
      | some d => simpa only [Ledger.call, reserve, hrefusal] using h
  | release number => exact h.release number

theorem Granted.callAll (h : l.Granted) (calls : List Call) : (l.callAll calls).Granted := by
  induction calls generalizing l with
  | nil => exact h
  | cons made rest ih => exact ih (h.call made)

theorem rules_call (l : Ledger) (made : Call) : (l.call made).rules = l.rules := by
  cases made with
  | reserve new => cases hrefusal : l.refusal? new <;> simp [call, reserve, hrefusal, record]
  | release number => rfl

theorem rules_callAll (l : Ledger) (calls : List Call) : (l.callAll calls).rules = l.rules := by
  induction calls generalizing l with
  | nil => rfl
  | cons made rest ih => exact (ih (l.call made)).trans (rules_call l made)

/-- No more specific rule that bounds the dimension accepts the claimant of a claim that the rule is
about. -/
def Unshadowed (l : Ledger) (d : Dimension) (r : CappedRule) : Prop :=
  ∀ e ∈ l.claims, r.key.accepts e.2.claimant → ∀ s ∈ l.rules, (s.caps.get d).isSome →
    s.key.accepts e.2.claimant → s.key.specificity ≤ r.key.specificity

/-- The last claim on a counter, with what was recorded before it. -/
theorem split_of_counterAt (h : l.counterAt k c t = before ++ [new]) :
    ∃ front number back, l.claims = front ++ (number, new) :: back ∧
      { l with claims := front }.counterAt k c t = before ∧
      k.SharesCounter c new.claimant ∧ new.first ≤ t ∧ t ≤ new.last := by
  simp only [counterAt, counter, List.filter_filter, List.filter_map] at h
  obtain ⟨kept, rest, hkept, hbefore, hrest⟩ := List.map_eq_append_iff.1 h
  obtain ⟨front, tail, hclaims, hfront, htail⟩ := List.filter_eq_append_iff.1 hkept
  obtain ⟨⟨number, claim⟩, rfl, hclaim⟩ := List.map_eq_singleton_iff.1 hrest
  obtain ⟨gone, back, htailEq, hgone, hholds, -⟩ := List.filter_eq_cons_iff.1 htail
  cases hclaim
  simp only [Function.comp_apply, Bool.and_eq_true, decide_eq_true_eq] at hholds
  refine ⟨front ++ gone, number, back, by rw [hclaims, htailEq, List.append_assoc], ?_,
    hholds.2, hholds.1⟩
  rw [← hbefore, ← hfront]
  simp only [counterAt, counter, List.filter_filter, List.filter_map, List.filter_append,
    List.filter_eq_nil_iff.2 hgone, List.append_nil]

theorem Granted.weight_le (h : l.Granted) (hd : d = .units ∨ d = .jobs) (hr : r ∈ l.rules)
    (hcap : r.caps.get d = some cap) (htop : l.Unshadowed d r) (c : Claimant) (t : Int) :
    ((l.counterAt r.key c t).map (Claim.weight d)).sum ≤ cap := by
  rcases List.eq_nil_or_concat (l.counterAt r.key c t) with hnone | ⟨before, new, hlast⟩
  · simp [hnone]
  rw [List.concat_eq_append] at hlast
  obtain ⟨front, number, back, hclaims, hbefore, hshares, hfirst, hheld⟩ := split_of_counterAt hlast
  have hmem : (number, new) ∈ l.claims := by simp [hclaims]
  have hgoverns : { l with claims := front }.Governs new.claimant d r cap :=
    ⟨hr, hshares.accepted, hcap, fun s hs haccepts hbounds =>
      htop _ hmem hshares.accepted s hs hbounds haccepts⟩
  have husage := refusal?_eq_none_iff.1 (h front _ back hclaims) d r (governs_iff.1 hgoverns).1 cap hcap
  -- The counter is the same for the claimant of its last claim.
  have hsame : ∀ l : Ledger, l.counterAt r.key new.claimant t = l.counterAt r.key c t := fun l => by
    simp only [counterAt, counter, hshares.comm_left]
  have hpeak : peak d ({ l with claims := front }.counted r.key new.claimant new.first new.last)
      new.first new.last + new.weight d ≤ cap := by
    rcases hd with rfl | rfl <;> exact husage
  have hsum := (peak_add_le_iff _ r.key d (hfirst.trans hheld)).1 hpeak t hfirst hheld
  rw [hsame, hbefore] at hsum
  rwa [hlast, List.map_append, List.sum_append, List.map_singleton, List.sum_singleton]

/-- Calls for one user with three resources and two jobs at once: the second claim is refused, the first
one is taken back twice, and the last one takes its place. -/
def annsCalls : List Call :=
  [.reserve (claimBy "ann" 2 0 9), .reserve (claimBy "ann" 2 5 14), .reserve (claimBy "ann" 1 5 14),
    .release 0, .release 0, .reserve (claimBy "ann" 2 5 9)]

def emptyLedger : Ledger := { twoUsersLedger with claims := [], next := 0 }

def perUser : CappedRule := ⟨⟨.any, .any, .any, .each⟩, ⟨some 3, none, none⟩⟩

end Ledger
end ClusterPlan
