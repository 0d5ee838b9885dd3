import ClusterPlan.Proofs.OrdinalSet.Smallest
import Mathlib.Order.Nat

/-!
Two sets compared by the least ordinal that only one of them has. The set with that ordinal is the
lexicographically smaller one, unless it contains the other.
-/

namespace ClusterPlan

/-- Of two ascending lists that agree below `x`, the one that has `x` comes before one that goes on
above it. -/
theorem lex_of_agree_below {l m : List Nat} (hl : l.Pairwise (· < ·)) (hm : m.Pairwise (· < ·))
    {x z : Nat} (hx : x ∈ l) (hxm : x ∉ m) (hz : z ∈ m) (hxz : x < z)
    (hagree : ∀ y < x, y ∈ l ↔ y ∈ m) : List.Lex (· < ·) l m := by
  induction l generalizing m with
  | nil => cases hx
  | cons a l ih =>
      cases m with
      | nil => cases hz
      | cons b m =>
          obtain ⟨ha, hrest⟩ := List.pairwise_cons.1 hl
          obtain ⟨hb, hrest'⟩ := List.pairwise_cons.1 hm
          have hle : a ≤ x := by
            rcases List.mem_cons.1 hx with rfl | hx
            · exact Nat.le_refl _
            · exact Nat.le_of_lt (ha x hx)
          by_cases hlt : a < b
          · exact .rel hlt
          · have hbx : b < x := by
              have hne : b ≠ x := fun heq => hxm (heq ▸ List.mem_cons_self)
              omega
            have hab : a = b := by
              rcases List.mem_cons.1 ((hagree b hbx).2 List.mem_cons_self) with heq | hmem
              · exact heq.symm
              · exact absurd (ha b hmem) hlt
            subst hab
            refine .cons (ih hrest hrest' ?_ ?_ ?_ fun y hy => ?_)
            · exact (List.mem_cons.1 hx).resolve_left (by omega)
            · exact fun hmem => hxm (List.mem_cons_of_mem _ hmem)
            · exact (List.mem_cons.1 hz).resolve_left (by omega)
            -- Neither tail has the common head.
            · have hsame := hagree y hy
              simp only [List.mem_cons] at hsame
              constructor
              · intro hmem
                exact (hsame.1 (Or.inr hmem)).resolve_left (Nat.ne_of_gt (ha y hmem))
              · intro hmem
                exact (hsame.2 (Or.inr hmem)).resolve_left (Nat.ne_of_gt (hb y hmem))

namespace OrdinalSet

variable {s t : OrdinalSet}

/-- The least ordinal that only one of the sets has is in the first. -/
def Leads (s t : OrdinalSet) : Prop := ∃ x ∈ s, x ∉ t ∧ ∀ y < x, y ∈ s ↔ y ∈ t

/-- The first set has a member below all members of the second. -/
def BeginsBefore (s t : OrdinalSet) : Prop := ∃ o ∈ s, ∀ p ∈ t, o < p

theorem Leads.lex_toList (h : s.Leads t) {z : Nat} (hz : z ∈ t) (hzs : z ∉ s) :
    List.Lex (· < ·) s.toList t.toList := by
  obtain ⟨x, hx, hxt, hagree⟩ := h
  have hxz : x < z := by
    have hne : x ≠ z := fun heq => hxt (heq ▸ hz)
    have hle : ¬ z < x := fun hlt => hzs ((hagree z hlt).2 hz)
    omega
  exact lex_of_agree_below s.toList_ascending t.toList_ascending (mem_toList.2 hx)
    (mt mem_toList.1 hxt) (mem_toList.2 hz) hxz fun y hy => by
      simp only [mem_toList, hagree y hy]

theorem exists_first_difference (h : s ≠ t) :
    ∃ x, ¬ (x ∈ s ↔ x ∈ t) ∧ ∀ y < x, y ∈ s ↔ y ∈ t := by
  have hexists : ∃ x, ¬ (x ∈ s ↔ x ∈ t) := not_forall.1 (mt ext_mem h)
  classical
  exact ⟨Nat.find hexists, Nat.find_spec hexists, fun y hy => not_not.1 (Nat.find_min hexists hy)⟩

/-- A set leads if the first difference is never an ordinal that only the other one has. -/
theorem eq_or_leads (h : ∀ x ∈ t, x ∉ s → ¬ ∀ y < x, y ∈ s ↔ y ∈ t) : s = t ∨ s.Leads t := by
  by_cases heq : s = t
  · exact Or.inl heq
  · obtain ⟨x, hx, hagree⟩ := exists_first_difference heq
    by_cases hxs : x ∈ s
    · exact Or.inr ⟨x, hxs, fun hxt => hx (iff_of_true hxs hxt), hagree⟩
    · have hxt : x ∈ t := not_not.1 fun hxt => hx (iff_of_false hxs hxt)
      exact absurd hagree (h x hxt hxs)

theorem exists_le_of_leads (h : s = t ∨ s.Leads t) {x : Nat} (hx : x ∈ t) : ∃ o ∈ s, o ≤ x := by
  rcases h with rfl | ⟨o, ho, hot, hagree⟩
  · exact ⟨x, hx, Nat.le_refl x⟩
  · by_cases hlt : x < o
    · exact ⟨x, (hagree x hlt).2 hx, Nat.le_refl x⟩
    · exact ⟨o, ho, Nat.not_lt.1 hlt⟩

end OrdinalSet
end ClusterPlan
