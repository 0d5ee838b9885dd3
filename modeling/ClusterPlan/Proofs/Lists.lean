import Mathlib.Data.List.Forall2
import Mathlib.Data.List.Nodup

/-!
Lists of answers, lists of pairs, lists without repetitions, and lists taken apart in two ways.
-/

namespace ClusterPlan

theorem forall₂_of_mapM {α β ε : Type} {f : α → Except ε β} {xs : List α} {ys : List β}
    (h : xs.mapM f = .ok ys) : List.Forall₂ (fun x y => f x = .ok y) xs ys := by
  induction xs generalizing ys with
  | nil =>
      cases h
      exact .nil
  | cons x rest ih =>
      rw [List.mapM_cons] at h
      cases hx : f x with
      | error e =>
          rw [hx] at h
          cases h
      | ok y =>
          cases hrest : rest.mapM f with
          | error e =>
              rw [hx, hrest] at h
              cases h
          | ok others =>
              rw [hx, hrest] at h
              cases h
              exact .cons hx (ih hrest)

theorem exists_left_of_forall₂ {α β : Type} {R : α → β → Prop} {xs : List α} {ys : List β}
    (h : List.Forall₂ R xs ys) {y : β} (hy : y ∈ ys) : ∃ x ∈ xs, R x y := by
  induction h with
  | nil => cases hy
  | cons hx _ ih =>
      rcases List.mem_cons.1 hy with rfl | hy
      · exact ⟨_, List.mem_cons_self, hx⟩
      · obtain ⟨x, hmem, hxy⟩ := ih hy
        exact ⟨x, List.mem_cons_of_mem _ hmem, hxy⟩

/-- Every answer is that of an item, and every item has an answer. -/
theorem answers_of_mapM {α β ε : Type} {f : α → Except ε β} {xs : List α} {ys : List β}
    (h : xs.mapM f = .ok ys) :
    (∀ y ∈ ys, ∃ x ∈ xs, f x = .ok y) ∧ ∀ x ∈ xs, ∃ y ∈ ys, f x = .ok y :=
  ⟨fun _ => exists_left_of_forall₂ (forall₂_of_mapM h),
    fun _ => exists_left_of_forall₂ (R := fun y x => f x = .ok y) (forall₂_of_mapM h).flip⟩

/-- The fault of a list is the fault of an item. -/
theorem error_of_mapM {α β ε : Type} {f : α → Except ε β} {xs : List α} {e : ε}
    (h : xs.mapM f = .error e) : ∃ x ∈ xs, f x = .error e := by
  induction xs with
  | nil => cases h
  | cons x rest ih =>
      rw [List.mapM_cons] at h
      cases hx : f x with
      | error e' =>
          rw [hx] at h
          cases h
          exact ⟨x, List.mem_cons_self, hx⟩
      | ok y =>
          cases hrest : rest.mapM f with
          | error e' =>
              rw [hx, hrest] at h
              cases h
              obtain ⟨x', hmem, herror⟩ := ih hrest
              exact ⟨x', List.mem_cons_of_mem _ hmem, herror⟩
          | ok others =>
              rw [hx, hrest] at h
              cases h

theorem mapM_eq_ok_of_forall {α β ε : Type} {f : α → Except ε β} {g : α → β} {xs : List α}
    (h : ∀ x ∈ xs, f x = .ok (g x)) : xs.mapM f = .ok (xs.map g) := by
  induction xs with
  | nil => rfl
  | cons x rest ih =>
      obtain ⟨hx, hrest⟩ := List.forall_mem_cons.1 h
      rw [List.mapM_cons, hx, ih hrest]
      rfl

theorem mapM_congr {α β γ ε : Type} {f : α → Except ε γ} {g : β → Except ε γ} {xs : List α}
    {ys : List β} (h : List.Forall₂ (fun x y => f x = g y) xs ys) : xs.mapM f = ys.mapM g := by
  induction h with
  | nil => rfl
  | cons hx _ ih => rw [List.mapM_cons, List.mapM_cons, hx, ih]

theorem eq_map_of_mapM {α β ε : Type} {f : α → Except ε β} {g : α → β} {xs : List α}
    {ys : List β} (h : xs.mapM f = .ok ys) (hf : ∀ x y, f x = .ok y → y = g x) : ys = xs.map g := by
  have hanswers := forall₂_of_mapM h
  clear h
  induction hanswers with
  | nil => rfl
  | cons hx _ ih => rw [List.map_cons, hf _ _ hx, ih]

/-- Pairs whose first parts come from a list are pairs with the members of that list. -/
theorem exists_choice {α β γ : Type} (f : α → β) (values : List α) (taken : List (β × γ))
    (h : taken.map Prod.fst = values.map f) :
    ∃ choice : List (α × γ), choice.map Prod.fst = values ∧
      taken = choice.map fun e => (f e.1, e.2) := by
  induction values generalizing taken with
  | nil => exact ⟨[], rfl, List.map_eq_nil_iff.1 h⟩
  | cons v rest ih =>
      cases taken with
      | nil => cases h
      | cons t others =>
          obtain ⟨ht, hothers⟩ := List.cons.inj h
          obtain ⟨choice, hchoice, rfl⟩ := ih others hothers
          refine ⟨(v, t.2) :: choice, by rw [List.map_cons, hchoice], ?_⟩
          rw [List.map_cons, ← ht]

theorem nodup_eraseDups (values : List String) : values.eraseDups.Nodup := by
  induction h : values.length using Nat.strongRecOn generalizing values with
  | _ n ih =>
      cases values with
      | nil => exact List.nodup_nil
      | cons v rest =>
          rw [List.eraseDups_cons, List.nodup_cons]
          constructor
          · simp [List.mem_eraseDups]
          · apply ih (rest.filter fun w => !w == v).length _ _ rfl
            have := List.length_filter_le (fun w => !w == v) rest
            rw [List.length_cons] at h
            omega

theorem filter_sublist_filter {α : Type} {p q : α → Bool} {xs : List α}
    (h : ∀ x ∈ xs, p x = true → q x = true) : (xs.filter p).Sublist (xs.filter q) := by
  have hboth : xs.filter p = (xs.filter q).filter p := by
    rw [List.filter_filter]
    refine List.filter_congr fun x hx => ?_
    cases hp : p x with
    | true => simp [h x hx hp]
    | false => simp
  rw [hboth]
  exact List.filter_sublist

/-- Keys are distinct where no member has another one's key. -/
theorem nodup_map_of_length_le_one {α β : Type} [BEq β] [LawfulBEq β] {key : α → β} {xs : List α}
    (h : ∀ x ∈ xs, (xs.filter fun y => key y == key x).length ≤ 1) : (xs.map key).Nodup := by
  rw [List.nodup_iff_count_le_one]
  intro k
  rw [List.count, List.countP_map, List.countP_eq_length_filter]
  by_cases hnone : xs.filter ((· == k) ∘ key) = []
  · rw [hnone]
    exact Nat.zero_le _
  · obtain ⟨x, hx⟩ := List.exists_mem_of_ne_nil _ hnone
    obtain ⟨hmem, hk⟩ := List.mem_filter.1 hx
    obtain rfl := eq_of_beq hk
    exact h x hmem

theorem filter_middle {α : Type} {p : α → Bool} {front middle back : List α}
    (hfront : ∀ x ∈ front, p x = false) (hmiddle : ∀ x ∈ middle, p x = true)
    (hback : ∀ x ∈ back, p x = false) : (front ++ middle ++ back).filter p = middle := by
  have hnone : ∀ {xs : List α}, (∀ x ∈ xs, p x = false) → xs.filter p = [] := fun h =>
    List.filter_eq_nil_iff.2 fun x hx => by rw [h x hx]; nofun
  rw [List.filter_append, List.filter_append, hnone hfront, hnone hback,
    List.filter_eq_self.2 hmiddle, List.nil_append, List.append_nil]

theorem countP_filter_filter {α : Type} (p q r : α → Bool) (xs : List α) :
    ((xs.filter q).filter r).countP p = xs.countP fun x => q x && r x && p x := by
  rw [List.countP_filter, List.countP_filter]
  exact List.countP_congr fun x _ => by rw [Bool.and_comm, Bool.and_comm (p x), Bool.and_assoc]

/-- Two lists parted by the same property have the same parts. -/
theorem append_inj_of_parted {α : Type} {p : α → Bool} {xs ys xs' ys' : List α}
    (h : xs ++ ys = xs' ++ ys') (hxs : ∀ x ∈ xs, p x = true) (hys : ∀ y ∈ ys, p y = false)
    (hxs' : ∀ x ∈ xs', p x = true) (hys' : ∀ y ∈ ys', p y = false) : xs = xs' ∧ ys = ys' := by
  have hleft : xs = xs' := by
    have hfirst : ([] ++ xs ++ ys).filter p = xs := filter_middle (List.forall_mem_nil _) hxs hys
    have hsecond : ([] ++ xs' ++ ys').filter p = xs' :=
      filter_middle (List.forall_mem_nil _) hxs' hys'
    rw [List.nil_append] at hfirst hsecond
    rw [← hfirst, h, hsecond]
  rw [hleft, List.append_cancel_left_eq] at h
  exact ⟨hleft, h⟩

/-- A search finds the same where nothing that it finds is left out. -/
theorem find?_filter_of_found {α : Type} {p q : α → Bool} {xs : List α}
    (h : ∀ x, xs.find? q = some x → p x = true) : (xs.filter p).find? q = xs.find? q := by
  induction xs with
  | nil => rfl
  | cons x rest ih =>
      rw [List.find?_cons] at h ⊢
      cases hq : q x with
      | true =>
          rw [hq] at h
          rw [List.filter_cons_of_pos (h x rfl), List.find?_cons_of_pos hq]
      | false =>
          rw [hq] at h
          cases hp : p x with
          | true =>
              rw [List.filter_cons_of_pos hp, List.find?_cons, hq]
              exact ih h
          | false =>
              rw [List.filter_cons_of_neg (by rw [hp]; nofun)]
              exact ih h

/-- Sorting and leaving out can be done in either order. -/
theorem filter_mergeSort {α : Type} {le : α → α → Bool}
    (htrans : ∀ a b c, le a b = true → le b c = true → le a c = true)
    (htotal : ∀ a b, (le a b || le b a) = true) (p : α → Bool) (xs : List α) :
    (xs.mergeSort le).filter p = (xs.filter p).mergeSort le := by
  have hback : ∀ {x : α} {xs front back : List α}, xs.mergeSort le = front ++ x :: back →
      ∀ y ∈ back, (!le x y) = false := by
    intro x xs front back hsorted y hy
    have hpairs := List.pairwise_mergeSort htrans htotal xs
    rw [hsorted, List.pairwise_append] at hpairs
    rw [(List.pairwise_cons.1 hpairs.2.1).1 y hy]
    rfl
  induction xs with
  | nil => simp
  | cons x rest ih =>
      obtain ⟨front, back, hsorted, hrest, hfront⟩ := List.mergeSort_cons htrans htotal x rest
      rw [hrest] at ih
      cases hp : p x with
      | false =>
          rw [List.filter_cons_of_neg (by rw [hp]; nofun), ← ih, hsorted, List.filter_append,
            List.filter_append, List.filter_cons_of_neg (by rw [hp]; nofun)]
      | true =>
          obtain ⟨front', back', hsorted', hrest', hfront'⟩ :=
            List.mergeSort_cons htrans htotal x (rest.filter p)
          have hsplit : front.filter p ++ back.filter p = front' ++ back' := by
            rw [← List.filter_append, ih, hrest']
          obtain ⟨hleft, hright⟩ := append_inj_of_parted hsplit
            (fun y hy => hfront y (List.mem_filter.1 hy).1)
            (fun y hy => hback hsorted y (List.mem_filter.1 hy).1) hfront' (hback hsorted')
          rw [List.filter_cons_of_pos hp, hsorted, hsorted', List.filter_append,
            List.filter_cons_of_pos hp, hleft, hright]

/-- Leaving out after a change is leaving out before it, where only what is left out changes. -/
theorem filter_map_eq_filter {α : Type} {g : α → α} {p q : α → Bool} {xs : List α}
    (h : ∀ x ∈ xs, p (g x) = q x ∧ (q x = true → g x = x)) : (xs.map g).filter p = xs.filter q := by
  induction xs with
  | nil => rfl
  | cons x rest ih =>
      obtain ⟨⟨hsame, hkept⟩, hrest⟩ := List.forall_mem_cons.1 h
      rw [List.map_cons, List.filter_cons, List.filter_cons, hsame, ih hrest]
      split
      · rw [hkept (by assumption)]
      · rfl

/-- Fewer answers, but none of the first `n` lost, leave the first `n` answers as they are. -/
theorem take_filterMap_eq {α β : Type} {p q : α → Option β} {xs : List α} {n : Nat}
    (hfewer : ∀ x ∈ xs, p x = none → q x = none)
    (hkept : ∀ x ∈ xs, ∀ y ∈ (xs.filterMap p).take n, p x = some y → q x = some y) :
    (xs.filterMap q).take n = (xs.filterMap p).take n := by
  induction xs generalizing n with
  | nil => rfl
  | cons x rest ih =>
      obtain ⟨hx, hrest⟩ := List.forall_mem_cons.1 hfewer
      cases hpx : p x with
      | none =>
          rw [List.filterMap_cons_none hpx] at hkept ⊢
          rw [List.filterMap_cons_none (hx hpx)]
          exact ih hrest fun z hz => hkept z (List.mem_cons_of_mem _ hz)
      | some y =>
          cases n with
          | zero => rw [List.take_zero, List.take_zero]
          | succ n =>
              rw [List.filterMap_cons_some hpx, List.take_succ_cons] at hkept ⊢
              rw [List.filterMap_cons_some (hkept x List.mem_cons_self y List.mem_cons_self hpx),
                List.take_succ_cons]
              exact congrArg _ (ih hrest fun z hz w hw =>
                hkept z (List.mem_cons_of_mem _ hz) w (List.mem_cons_of_mem _ hw))

theorem mem_takeWhile_of_ascending {ts : List Int} {p : Int → Bool} (h : ts.Pairwise (· < ·))
    (hp : ∀ a b, a < b → p b = true → p a = true) {t : Int} :
    t ∈ ts.takeWhile p ↔ t ∈ ts ∧ p t = true := by
  induction ts with
  | nil => simp
  | cons u rest ih =>
      obtain ⟨hu, hrest⟩ := List.pairwise_cons.1 h
      rw [List.takeWhile_cons]
      cases hpu : p u with
      | true =>
          rw [if_pos rfl, List.mem_cons, List.mem_cons, ih hrest]
          constructor
          · rintro (rfl | ⟨ht, hpt⟩)
            · exact ⟨Or.inl rfl, hpu⟩
            · exact ⟨Or.inr ht, hpt⟩
          · rintro ⟨rfl | ht, hpt⟩
            · exact Or.inl rfl
            · exact Or.inr ⟨ht, hpt⟩
      | false =>
          simp only [Bool.false_eq_true, if_false, List.not_mem_nil, List.mem_cons, false_iff,
            not_and, Bool.not_eq_true]
          rintro (rfl | ht)
          · exact hpu
          · cases hpt : p t with
            | false => rfl
            | true => rw [hp u t (hu t ht) hpt] at hpu; cases hpu

section Splits

variable {α : Type} {xs ys front back front' back' : List α} {x y : α}

/-- Of two places in a list either both are the same or one is behind the other. -/
theorem place_cases (h : front ++ x :: back = front' ++ y :: back') :
    x = y ∨ (y ∈ back ∧ x ∈ front') ∨ (x ∈ back' ∧ y ∈ front) := by
  rcases List.append_eq_append_iff.1 h with ⟨between, hfront, hback⟩ | ⟨between, hfront, hback⟩
  · cases between with
    | nil => exact Or.inl (List.cons.inj hback).1
    | cons d between =>
        obtain ⟨rfl, hrest⟩ := List.cons.inj hback
        rw [hfront, hrest]
        exact Or.inr (Or.inl ⟨List.mem_append_right _ List.mem_cons_self,
          List.mem_append_right _ List.mem_cons_self⟩)
  · cases between with
    | nil => exact Or.inl (List.cons.inj hback).1.symm
    | cons d between =>
        obtain ⟨rfl, hrest⟩ := List.cons.inj hback
        rw [hfront, hrest]
        exact Or.inr (Or.inr ⟨List.mem_append_right _ List.mem_cons_self,
          List.mem_append_right _ List.mem_cons_self⟩)

/-- What is not in the second part has the whole of its front in the first. -/
theorem split_of_not_mem (h : xs ++ ys = front ++ x :: back) (hx : x ∉ ys) :
    ∃ rest, xs = front ++ x :: rest := by
  rcases List.append_eq_append_iff.1 h with ⟨between, _, hys⟩ | ⟨between, hxs, hback⟩
  · rw [hys] at hx
    exact absurd (List.mem_append_right _ List.mem_cons_self) hx
  · cases between with
    | nil =>
        rw [List.nil_append] at hback
        rw [← hback] at hx
        exact absurd List.mem_cons_self hx
    | cons y rest =>
        obtain ⟨rfl, _⟩ := List.cons.inj hback
        exact ⟨rest, hxs⟩

/-- What is not in the first part has all of that part in front of it. -/
theorem mem_front_of_not_mem (h : xs ++ ys = front ++ x :: back) (hx : x ∉ xs) :
    ∀ y ∈ xs, y ∈ front := by
  rcases List.append_eq_append_iff.1 h with ⟨between, hfront, _⟩ | ⟨between, hxs, hback⟩
  · intro y hy
    rw [hfront]
    exact List.mem_append_left _ hy
  · cases between with
    | nil =>
        rw [List.append_nil] at hxs
        rw [hxs]
        exact fun y hy => hy
    | cons y rest =>
        obtain ⟨rfl, _⟩ := List.cons.inj hback
        rw [hxs] at hx
        exact absurd (List.mem_append_right _ List.mem_cons_self) hx

end Splits

end ClusterPlan
