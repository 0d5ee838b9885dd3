import Mathlib.Logic.Function.Basic
import ClusterPlan.Proofs.Quota.Usage

/-!
What of a ledger counts from some second on. Claims that are over by then never meet a window that
begins later, and the numbers of the others matter only when one of them is taken back. So ledgers with
the same current claims decide alike, whatever else they hold and however they count.
-/

namespace ClusterPlan

namespace Ledger

variable {now : Int} {l l' : Ledger} {number : Nat → Nat} {new : Claim} {d : Dimension} {k n : Nat}

/-- The claims that are not over before `now`, with their numbers. -/
def current (l : Ledger) (now : Int) : List (Nat × Claim) :=
  l.claims.filter fun e => now ≤ e.2.last

/-- The ledgers count the same from `now` on. What the second one knows under a number, the first one
knows under the number for it. -/
structure Matches (now : Int) (number : Nat → Nat) (l l' : Ledger) : Prop where
  rules : l'.rules = l.rules
  current : l.current now = (l'.current now).map fun e => (number e.1, e.2)
  next : ∀ i, l.next + i = number (l'.next + i)

theorem current_record (l : Ledger) (now : Int) (new : Claim) : (l.record new).1.current now =
    l.current now ++ if now ≤ new.last then [(l.next, new)] else [] := by
  simp only [current, record, List.filter_append, List.filter_cons, List.filter_nil,
    decide_eq_true_eq]

theorem current_release (l : Ledger) (now : Int) (k : Nat) :
    (l.release k).current now = (l.current now).filter fun e => e.1 != k := by
  simp only [current, release, List.filter_filter, Bool.and_comm]

theorem counted_eq_current (hnow : now ≤ new.first) (l : Ledger) (key : RuleKey) :
    l.counted key new.claimant new.first new.last = ((l.current now).map (·.2)).filter fun claim =>
      key.countsWith new.claimant claim.claimant && claim.meets new.first new.last := by
  rw [counted, current, List.filter_map, List.filter_map, List.filter_filter]
  refine congrArg _ (List.filter_congr fun e _ => ?_)
  rw [Function.comp_apply, Bool.eq_self_and, Bool.and_eq_true, Claim.meets, Bool.and_eq_true,
    decide_eq_true_eq, decide_eq_true_eq, decide_eq_true_eq]
  exact fun hmeets => Int.le_trans hnow hmeets.2.2

/-- A check looks at the rules and at what they count. -/
theorem refusal?_congr (hrules : l'.rules = l.rules)
    (husage : ∀ key d, l'.usage key d new = l.usage key d new) :
    l'.refusal? new = l.refusal? new := by
  have hallows : ∀ d, l'.allows d new = l.allows d new := fun d => funext fun r => by
    rw [allows, allows]
    split <;> simp only [husage]
  simp only [refusal?, enforced_congr hrules, hallows]

/-- The numbers that are left when one of them is taken up. -/
def past (taken n : Nat) : Nat := if n < taken then n else n + 1

theorem past_injective (taken : Nat) : Function.Injective (past taken) := by
  intro n n' h
  simp only [past] at h
  split at h <;> split at h <;> omega

theorem past_ne (taken n : Nat) : past taken n ≠ taken := by
  simp only [past]
  split <;> omega

namespace Matches

theorem refl (now : Int) (l : Ledger) : Matches now id l l where
  rules := rfl
  current := (List.map_id' _).symm
  next _ := rfl

section Checks

variable (h : Matches now number l l')
include h

theorem claimant_eq (job : Job) : l'.claimant job = l.claimant job := by
  rw [claimant, claimant, h.rules]

theorem counted_eq (hnow : now ≤ new.first) (key : RuleKey) :
    l'.counted key new.claimant new.first new.last = l.counted key new.claimant new.first new.last := by
  rw [counted_eq_current hnow, counted_eq_current hnow, h.current, List.map_map]
  rfl

theorem refusal?_eq (hnow : now ≤ new.first) : l'.refusal? new = l.refusal? new := by
  refine refusal?_congr h.rules fun key d => ?_
  cases d <;> simp only [usage, h.counted_eq hnow]

end Checks

theorem record (h : Matches now number l l') (new : Claim) :
    Matches now number (l.record new).1 (l'.record new).1 where
  rules := h.rules
  current := by
    have hnumber : number l'.next = l.next := (h.next 0).symm
    rw [current_record, current_record, h.current, List.map_append]
    split
    · rw [List.map_cons, hnumber, List.map_nil]
    · rfl
  next i := by
    have hnext := h.next (1 + i)
    rw [← Nat.add_assoc, ← Nat.add_assoc] at hnext
    exact hnext

theorem release (h : Matches now number l l') (hnumber : Function.Injective number) (n : Nat) :
    Matches now number (l.release (number n)) (l'.release n) where
  rules := h.rules
  current := by
    rw [current_release, current_release, h.current, List.filter_map]
    refine congrArg _ (List.filter_congr fun e _ => ?_)
    simp [bne, hnumber.beq_eq]
  next := h.next

/-- Taking back a claim that the second ledger does not know. -/
theorem release_left (h : Matches now number l l') (hk : ∀ n, number n ≠ k) :
    Matches now number (l.release k) l' where
  rules := h.rules
  current := by
    rw [current_release, h.current, List.filter_eq_self]
    intro e he
    obtain ⟨e', _, rfl⟩ := List.mem_map.1 he
    simpa using hk e'.1
  next := h.next

/-- A claim that is over takes up a number and nothing else. -/
theorem record_left (h : Matches now id l l') (hlast : new.last < now)
    (hnumbers : ∀ e ∈ l.claims, e.1 < l.next) :
    Matches now (past l.next) (l.record new).1 l' where
  rules := h.rules
  current := by
    have hsame : (l'.current now).map (fun e => (id e.1, e.2)) = l'.current now := List.map_id' _
    rw [current_record, if_neg (Int.not_le.2 hlast), List.append_nil, ← hsame, ← h.current]
    refine ((List.map_congr_left fun e he => ?_).trans (List.map_id' _)).symm
    rw [past, if_pos (hnumbers e (List.mem_filter.1 he).1)]
  next i := by
    have hnext := h.next 0
    simp only [Ledger.record, id, past] at hnext ⊢
    rw [if_neg (by omega)]
    omega

end Matches

end Ledger

end ClusterPlan
