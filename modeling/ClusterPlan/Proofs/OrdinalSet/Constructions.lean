import ClusterPlan.Proofs.OrdinalSet.Cutting
import ClusterPlan.Proofs.OrdinalSet.Writing
import Mathlib.Data.Finset.Sort
import Mathlib.Data.Option.NAry
import Mathlib.Order.Interval.Finset.Nat

/-!
Sets of ordinals against finite sets of numbers. A construction is read twice, as the operations of this
library and as those on finite sets, and the set it gives has the members that it stands for. The form
of a set is settled by its members: its ranges are the runs of them, so two constructions of one finite
set cannot be told apart by comparing, hashing or printing what they give.
-/

namespace ClusterPlan.OrdinalSet

/-- What a set of ordinals is made from. -/
inductive Construction where
  | ofPairs (bounds : List (Nat × Nat))
  | ofIds (ids : List Nat)
  | union (c d : Construction)
  | inter (c d : Construction)
  | diff (c d : Construction)
  | smallest (c : Construction) (n : Nat)

/-- The numbers of `m` with fewer than `n` others of `m` below them. -/
def leastOf (n : Nat) (m : Finset Nat) : Finset Nat := m.filter fun o => (m.filter (· < o)).card < n

namespace Construction

/-- The set that is made, unless more members are to be cut off than there are. -/
def build? : Construction → Option OrdinalSet
  | ofPairs bounds => some (OrdinalSet.ofPairs bounds)
  | ofIds ids => some (OrdinalSet.ofIds ids)
  | union c d => Option.map₂ (· ∪ ·) c.build? d.build?
  | inter c d => Option.map₂ (· ∩ ·) c.build? d.build?
  | diff c d => Option.map₂ (· \ ·) c.build? d.build?
  | smallest c n => c.build?.bind fun s => s.smallest? n

/-- The finite set that is meant. -/
def denoted? : Construction → Option (Finset Nat)
  | ofPairs bounds => some (bounds.toFinset.biUnion fun b => Finset.Icc b.1 b.2)
  | ofIds ids => some ids.toFinset
  | union c d => Option.map₂ (· ∪ ·) c.denoted? d.denoted?
  | inter c d => Option.map₂ (· ∩ ·) c.denoted? d.denoted?
  | diff c d => Option.map₂ (· \ ·) c.denoted? d.denoted?
  | smallest c n => c.denoted?.bind fun m => if m.card < n then none else some (leastOf n m)

/-- No ordinal above the bound is named. -/
def Within (bound : Nat) : Construction → Prop
  | ofPairs bounds => ∀ b ∈ bounds, b.2 ≤ bound
  | ofIds ids => ∀ o ∈ ids, o ≤ bound
  | union c d | inter c d | diff c d => c.Within bound ∧ d.Within bound
  | smallest c _ => c.Within bound

end Construction

section Members

variable {s t : OrdinalSet}

theorem members_ofPairs (bounds : List (Nat × Nat)) :
    (ofPairs bounds).members = bounds.toFinset.biUnion fun b => Finset.Icc b.1 b.2 := by
  ext o
  simp

theorem members_ofIds (ids : List Nat) : (ofIds ids).members = ids.toFinset := by
  ext o
  simp

theorem members_union (s t : OrdinalSet) : (s ∪ t).members = s.members ∪ t.members := by
  ext o
  simp

theorem members_inter (s t : OrdinalSet) : (s ∩ t).members = s.members ∩ t.members := by
  ext o
  simp

theorem members_sdiff (s t : OrdinalSet) : (s \ t).members = s.members \ t.members := by
  ext o
  simp

theorem members_of_cutFrom {n : Nat} (h : t.CutFrom s n) : t.members = leastOf n s.members := by
  ext o
  rw [leastOf, Finset.mem_filter]
  constructor
  · intro ho
    refine ⟨h.inside ho, ?_⟩
    have hbelow : s.members.filter (· < o) ⊆ t.members.erase o := by
      intro p hp
      obtain ⟨hps, hpo⟩ := Finset.mem_filter.1 hp
      refine Finset.mem_erase.2 ⟨Nat.ne_of_lt hpo, mem_members.2 ?_⟩
      by_contra hpt
      have hop := h.least o (mem_members.1 ho) p (mem_members.1 hps) hpt
      omega
    calc (s.members.filter (· < o)).card ≤ (t.members.erase o).card := Finset.card_le_card hbelow
      _ < t.members.card := Finset.card_erase_lt_of_mem ho
      _ = n := h.count
  · rintro ⟨hos, hfew⟩
    by_contra hot
    have hbelow : t.members ⊆ s.members.filter (· < o) := by
      intro p hp
      have hpo := h.least p (mem_members.1 hp) o (mem_members.1 hos) (mt mem_members.2 hot)
      exact Finset.mem_filter.2 ⟨h.inside hp, hpo⟩
    have hmany := Finset.card_le_card hbelow
    rw [h.count] at hmany
    omega

theorem members_smallest? (s : OrdinalSet) (n : Nat) : (s.smallest? n).map members =
    if s.members.card < n then none else some (leastOf n s.members) := by
  rw [card_members]
  cases h : s.smallest? n with
  | none => rw [if_pos (smallest?_eq_none_iff.1 h), Option.map_none]
  | some t =>
      have hcut := cutFrom_of_smallest? h
      rw [if_neg (Nat.not_lt.2 (le_card_of_smallest? h)), Option.map_some, members_of_cutFrom hcut]

theorem members_inj : s.members = t.members ↔ s = t := by
  refine ⟨fun h => ext_mem fun o => ?_, fun h => by rw [h]⟩
  rw [← mem_members, h, mem_members]

/-- What is made has the members that are meant. -/
theorem Construction.map_members_build? (c : Construction) : c.build?.map members = c.denoted? := by
  induction c with
  | ofPairs bounds => rw [build?, denoted?, Option.map_some, members_ofPairs]
  | ofIds ids => rw [build?, denoted?, Option.map_some, members_ofIds]
  | union c d hc hd =>
      rw [build?, denoted?, ← hc, ← hd]
      exact Option.map_map₂_distrib members_union
  | inter c d hc hd =>
      rw [build?, denoted?, ← hc, ← hd]
      exact Option.map_map₂_distrib members_inter
  | diff c d hc hd =>
      rw [build?, denoted?, ← hc, ← hd]
      exact Option.map_map₂_distrib members_sdiff
  | smallest c n hc =>
      rw [build?, denoted?, ← hc]
      cases c.build? with
      | none => rfl
      | some s => exact members_smallest? s n

theorem Construction.le_of_mem_denoted? {bound : Nat} {c : Construction} {m : Finset Nat}
    (hc : c.Within bound) (h : c.denoted? = some m) : ∀ o ∈ m, o ≤ bound := by
  induction c generalizing m with
  | ofPairs bounds =>
      cases h
      intro o ho
      obtain ⟨b, hb, hob⟩ := Finset.mem_biUnion.1 ho
      exact (Finset.mem_Icc.1 hob).2.trans (hc b (List.mem_toFinset.1 hb))
  | ofIds ids =>
      cases h
      exact fun o ho => hc o (List.mem_toFinset.1 ho)
  | union c d ihc ihd =>
      obtain ⟨p, q, hp, hq, rfl⟩ := Option.map₂_eq_some_iff.1 h
      intro o ho
      exact (Finset.mem_union.1 ho).elim (ihc hc.1 hp o) (ihd hc.2 hq o)
  | inter c d ihc _ =>
      obtain ⟨p, q, hp, _, rfl⟩ := Option.map₂_eq_some_iff.1 h
      exact fun o ho => ihc hc.1 hp o (Finset.mem_inter.1 ho).1
  | diff c d ihc _ =>
      obtain ⟨p, q, hp, _, rfl⟩ := Option.map₂_eq_some_iff.1 h
      exact fun o ho => ihc hc.1 hp o (Finset.mem_sdiff.1 ho).1
  | smallest c n ihc =>
      obtain ⟨p, hp, hcut⟩ := Option.bind_eq_some_iff.1 h
      split at hcut
      · cases hcut
      · cases hcut
        exact fun o ho => ihc hc hp o (Finset.mem_filter.1 ho).1

end Members

section Runs

variable {m : Finset Nat} {q r : Range} {s : OrdinalSet} {o : Nat}

/-- A range is in `m`, and its neighbours on both sides are not. -/
structure IsRun (m : Finset Nat) (r : Range) : Prop where
  inside : ∀ o ∈ r, o ∈ m
  below : ∀ o, o + 1 = r.lo → o ∉ m
  above : r.hi + 1 ∉ m

theorem IsRun.lo_le (hq : IsRun m q) (hr : IsRun m r) (hoq : o ∈ q) (hor : o ∈ r) : q.lo ≤ r.lo := by
  obtain ⟨hlo, hhi⟩ := hoq
  by_contra hlt
  have hpred : q.lo - 1 ∈ r := ⟨by omega, by have := hor.2; omega⟩
  exact hq.below (q.lo - 1) (by omega) (hr.inside _ hpred)

theorem IsRun.hi_le (hq : IsRun m q) (hr : IsRun m r) (hoq : o ∈ q) (hor : o ∈ r) : q.hi ≤ r.hi := by
  obtain ⟨hlo, hhi⟩ := hoq
  by_contra hlt
  have hsucc : r.hi + 1 ∈ q := ⟨by have := hor.2; omega, by omega⟩
  exact hr.above (hq.inside _ hsucc)

/-- Runs that share a number are the same. -/
theorem IsRun.eq_of_mem (hq : IsRun m q) (hr : IsRun m r) (hoq : o ∈ q) (hor : o ∈ r) : q = r :=
  Range.eq_of_bounds ((hq.lo_le hr hoq hor).antisymm (hr.lo_le hq hor hoq))
    ((hq.hi_le hr hoq hor).antisymm (hr.hi_le hq hor hoq))

/-- The other members keep a distance from a range of the set. -/
theorem mem_or_apart (hr : r ∈ s.ranges) (ho : o ∈ s) : o ∈ r ∨ o + 1 < r.lo ∨ r.hi + 1 < o := by
  obtain ⟨q, hq, hlo, hhi⟩ := ho
  rcases Range.eq_or_before s.apart hq hr with rfl | hqr | hrq
  · exact Or.inl ⟨hlo, hhi⟩
  · simp only [Range.Before] at hqr
    omega
  · simp only [Range.Before] at hrq
    omega

theorem isRun_of_mem_ranges (hr : r ∈ s.ranges) : IsRun s.members r where
  inside o ho := mem_members.2 ⟨r, hr, ho⟩
  below o hlo ho := by
    rcases mem_or_apart hr (mem_members.1 ho) with hin | hlow | hhigh
    · have := hin.1
      omega
    · omega
    · have := r.lo_le_hi
      omega
  above ho := by
    rcases mem_or_apart hr (mem_members.1 ho) with hin | hlow | hhigh
    · have := hin.2
      omega
    · have := r.lo_le_hi
      omega
    · omega

theorem mem_ranges_iff : r ∈ s.ranges ↔ IsRun s.members r := by
  refine ⟨isRun_of_mem_ranges, fun hr => ?_⟩
  obtain ⟨q, hq, hmem⟩ := mem_members.1 (hr.inside r.lo r.lo_mem)
  rw [← (isRun_of_mem_ranges hq).eq_of_mem hr hmem r.lo_mem]
  exact hq

end Runs

/-- The set `s` is the finite set `m` in its one form. -/
structure Represents (s : OrdinalSet) (m : Finset Nat) : Prop where
  apart : s.ranges.Pairwise Range.Before
  runs : ∀ r, r ∈ s.ranges ↔ IsRun m r
  mem : ∀ o, o ∈ s ↔ o ∈ m
  card : s.card = m.card
  toList : s.toList = m.sort

theorem toList_eq_sort (s : OrdinalSet) : s.toList = s.members.sort := by
  refine List.Pairwise.eq_of_mem_iff s.toList_ascending s.members.sortedLT_sort.pairwise fun o => ?_
  rw [mem_toList, Finset.mem_sort, mem_members]

theorem represents_members (s : OrdinalSet) : s.Represents s.members where
  apart := s.apart
  runs _ := mem_ranges_iff
  mem _ := mem_members.symm
  card := s.card_members.symm
  toList := s.toList_eq_sort

/-- All that is asked of two sets depends on their members `m` and `n` alone. -/
structure Compared (s t : OrdinalSet) (m n : Finset Nat) : Prop where
  inside : s.subset t ↔ m ⊆ n
  equal : s = t ↔ m = n
  hashed : (∀ (σ : Type) (write : σ → Nat → σ) (state : σ),
    s.hashInto write state = t.hashInto write state) ↔ m = n
  printed : s.text = t.text ↔ m = n

theorem compared_members (s t : OrdinalSet) : Compared s t s.members t.members where
  inside := by
    rw [subset_iff, Finset.subset_iff]
    simp only [mem_members]
  equal := members_inj.symm
  hashed := by
    rw [members_inj]
    exact ⟨hashInto_inj, fun h => by simp only [h, implies_true]⟩
  printed := by
    rw [members_inj]
    exact ⟨text_inj, congrArg text⟩

/-- Whatever a set is made from, it represents the finite set that is meant, and it is made exactly if
there is one. From ordinals of 32 bits only such ordinals come, and a word holds their number. Two sets
made in any two ways are compared as what they stand for. -/
theorem Construction.canonical (c d : Construction) :
    Option.Rel Represents c.build? c.denoted? ∧
    (c.Within Number.greatestCount → ∀ s ∈ c.build?,
      (∀ o ∈ s, o ≤ Number.greatestCount) ∧ s.cardWord.toNat = s.card) ∧
    ∀ s ∈ c.build?, ∀ t ∈ d.build?, ∀ m ∈ c.denoted?, ∀ n ∈ d.denoted?, Compared s t m n := by
  have hc := c.map_members_build?
  have hd := d.map_members_build?
  refine ⟨?_, fun hwithin s hs => ?_, fun s hs t ht m hm n hn => ?_⟩
  · rw [← hc]
    cases c.build? with
    | none => exact .none
    | some s => exact .some s.represents_members
  · rw [Option.mem_def.1 hs] at hc
    have hle : ∀ o ∈ s, o ≤ Number.greatestCount := fun o ho =>
      le_of_mem_denoted? hwithin hc.symm o (mem_members.2 ho)
    exact ⟨hle, toNat_cardWord hle⟩
  · rw [Option.mem_def.1 hs, Option.mem_def.1 hm] at hc
    rw [Option.mem_def.1 ht, Option.mem_def.1 hn] at hd
    cases hc
    cases hd
    exact compared_members s t

example : (Construction.ofPairs [(9, 3), (4294967295, 4294967295), (4294967293, 4294967294)]).build? =
    (Construction.diff (.ofPairs [(4294967292, 4294967295)]) (.ofIds [7, 4294967292])).build? := by
  decide

end ClusterPlan.OrdinalSet
