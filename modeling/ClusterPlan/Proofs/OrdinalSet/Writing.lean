import ClusterPlan.Proofs.OrdinalSet.Members

/-!
A set as text and in a hash. The text of a set, and what a hash function reads of it, determine its
ranges: no other set is written the same. A text is taken apart at its commas, and each of its ranges at
the hyphen.
-/

namespace ClusterPlan

section Lists

variable {α : Type u}

theorem filter_intercalate (p : α → Bool) (sep : List α) (ls : List (List α)) :
    (sep.intercalate ls).filter p = (sep.filter p).intercalate (ls.map (List.filter p)) := by
  induction ls with
  | nil => rfl
  | cons l rest ih =>
      cases rest with
      | nil => simp
      | cons m rest =>
          rw [List.intercalate_cons_cons, List.filter_append, List.filter_append, ih]
          simp only [List.map_cons, List.intercalate_cons_cons]

/-- Joined lists are told apart, if the separator is in none of them and none of them is empty. -/
theorem intercalate_inj [DecidableEq α] {sep : α} {ls ms : List (List α)}
    (hls : ∀ l ∈ ls, sep ∉ l ∧ l ≠ []) (hms : ∀ l ∈ ms, sep ∉ l ∧ l ≠ [])
    (h : [sep].intercalate ls = [sep].intercalate ms) : ls = ms := by
  have hempty : ∀ {ns : List (List α)}, (∀ l ∈ ns, sep ∉ l ∧ l ≠ []) →
      [sep].intercalate ns = [] → ns = [] := by
    intro ns hns hnil
    cases ns with
    | nil => rfl
    | cons l rest =>
        have hl := (hns l List.mem_cons_self).2
        cases rest with
        | nil => exact absurd (by simpa using hnil) hl
        | cons m rest =>
            rw [List.intercalate_cons_cons] at hnil
            simp at hnil
  by_cases hnil : ls = []
  · rw [hnil, List.intercalate_nil] at h
    rw [hnil, hempty hms h.symm]
  · have hnil' : ms ≠ [] := by
      rintro rfl
      exact hnil (hempty hls h)
    rw [← List.splitOn_intercalate sep (fun l hl => (hls l hl).1) hnil, h,
      List.splitOn_intercalate sep (fun l hl => (hms l hl).1) hnil']

end Lists

theorem toDigits_inj {m n : Nat} : Nat.toDigits 10 m = Nat.toDigits 10 n ↔ m = n := by
  refine ⟨fun h => ?_, fun h => by rw [h]⟩
  rw [← Nat.ofDigitChars_ten_toDigits (n := m), h, Nat.ofDigitChars_ten_toDigits]

theorem not_mem_toDigits {c : Char} (hc : c.isDigit = false) (n : Nat) : c ∉ Nat.toDigits 10 n := by
  intro h
  rw [Nat.isDigit_of_mem_toDigits (by decide) (by decide) h] at hc
  cases hc

namespace Range

variable {r s : Range}

/-- The bounds of a range, once if they are the same. -/
def ends (r : Range) : List Nat := if r.lo = r.hi then [r.lo] else [r.lo, r.hi]

theorem ends_inj (h : r.ends = s.ends) : r = s := by
  simp only [ends] at h
  split at h
  · split at h
    · have hlo := (List.cons.inj h).1
      exact eq_of_bounds hlo (by omega)
    · cases (List.cons.inj h).2
  · split at h
    · cases (List.cons.inj h).2
    · obtain ⟨hlo, hrest⟩ := List.cons.inj h
      exact eq_of_bounds hlo (List.cons.inj hrest).1

theorem toList_text (r : Range) : r.text.toList = ['-'].intercalate (r.ends.map (Nat.toDigits 10)) := by
  simp only [text, ends]
  split
  · simp
  · simp [String.toList_append]
    rfl

theorem of_mem_text {c : Char} (h : c ∈ r.text.toList) : c = '-' ∨ c.isDigit := by
  have hdigit : ∀ n, c ∈ Nat.toDigits 10 n → c.isDigit := fun n hn =>
    Nat.isDigit_of_mem_toDigits (by decide) (by decide) hn
  rw [toList_text, ends] at h
  split at h
  · exact Or.inr (hdigit r.lo (by simpa using h))
  · simp only [List.map_cons, List.map_nil, List.intercalate_cons_cons, List.intercalate_singleton,
      List.mem_append, List.mem_singleton] at h
    rcases h with (hlo | hsign) | hhi
    · exact Or.inr (hdigit r.lo hlo)
    · exact Or.inl hsign
    · exact Or.inr (hdigit r.hi hhi)

theorem text_ne_nil (r : Range) : r.text.toList ≠ [] := by
  rw [toList_text, ends]
  split
  · simp
  · simp [List.intercalate_cons_cons]

theorem text_inj (h : r.text = s.text) : r = s := by
  have hnumbers : ∀ q : Range, ∀ cs ∈ q.ends.map (Nat.toDigits 10), '-' ∉ cs ∧ cs ≠ [] := by
    intro q cs hcs
    obtain ⟨n, _, rfl⟩ := List.mem_map.1 hcs
    exact ⟨not_mem_toDigits (by decide) n, Nat.toDigits_ne_nil⟩
  have hchars := congrArg String.toList h
  rw [toList_text, toList_text] at hchars
  have hends := intercalate_inj (hnumbers r) (hnumbers s) hchars
  exact ends_inj ((List.map_inj_right fun _ _ => toDigits_inj.1).1 hends)

end Range

namespace OrdinalSet

variable {s t : OrdinalSet}

theorem eq_of_ranges (h : s.ranges = t.ranges) : s = t := by
  cases s
  cases t
  cases h
  rfl

/-- The text without its blanks: the ranges between commas. -/
theorem filter_text (s : OrdinalSet) : s.text.toList.filter (· ≠ ' ') =
    '[' :: [','].intercalate (s.ranges.map fun r => r.text.toList) ++ [']'] := by
  have hblank : ∀ r : Range, r.text.toList.filter (· ≠ ' ') = r.text.toList := by
    intro r
    rw [List.filter_eq_self]
    intro c hc
    refine decide_eq_true ?_
    rintro rfl
    rcases Range.of_mem_text hc with hsign | hdigit
    · exact absurd hsign (by decide)
    · exact absurd hdigit (by decide)
  have htexts : (s.ranges.map Range.text).map String.toList =
      s.ranges.map fun r => r.text.toList := by
    rw [List.map_map]
    rfl
  have hblanks : (s.ranges.map fun r => r.text.toList).map (List.filter (· ≠ ' ')) =
      s.ranges.map fun r => r.text.toList := by
    rw [List.map_map]
    exact List.map_congr_left fun r _ => hblank r
  rw [text, String.toList_append, String.toList_append, String.toList_intercalate, htexts,
    List.filter_append, List.filter_append, filter_intercalate, hblanks]
  rfl

theorem text_inj (h : s.text = t.text) : s = t := by
  have hranges : ∀ u : OrdinalSet, ∀ cs ∈ u.ranges.map fun r => r.text.toList,
      ',' ∉ cs ∧ cs ≠ [] := by
    intro u cs hcs
    obtain ⟨r, _, rfl⟩ := List.mem_map.1 hcs
    refine ⟨fun hc => ?_, r.text_ne_nil⟩
    rcases Range.of_mem_text hc with hsign | hdigit
    · exact absurd hsign (by decide)
    · exact absurd hdigit (by decide)
  have hchars := congrArg (fun text => text.toList.filter (· ≠ ' ')) h
  simp only [filter_text] at hchars
  have hjoined := List.append_cancel_right (List.cons.inj hchars).2
  have htexts := intercalate_inj (hranges s) (hranges t) hjoined
  exact eq_of_ranges ((List.map_inj_right fun _ _ hrs =>
    Range.text_inj (String.toList_injective hrs)).1 htexts)

/-- What a hash function reads of ranges. -/
def readings (l : List Range) : List Nat := l.flatMap fun r => [r.lo, r.hi]

theorem readings_inj {l m : List Range} (h : readings l = readings m) : l = m := by
  induction l generalizing m with
  | nil =>
      cases m with
      | nil => rfl
      | cons r m => cases h
  | cons r l ih =>
      cases m with
      | nil => cases h
      | cons q m =>
          obtain ⟨hlo, htail⟩ := List.cons.inj h
          obtain ⟨hhi, hrest⟩ := List.cons.inj htail
          rw [Range.eq_of_bounds hlo hhi, ih hrest]

theorem hashInto_eq {σ : Type u} (write : σ → Nat → σ) (state : σ) (s : OrdinalSet) :
    s.hashInto write state = (readings s.ranges).foldl write state := by
  rw [hashInto, readings, List.foldl_flatMap]
  rfl

/-- One hash function keeps all that it reads, so sets that no hash function tells apart are the same. -/
theorem hashInto_inj (h : ∀ (σ : Type) (write : σ → Nat → σ) (state : σ),
    s.hashInto write state = t.hashInto write state) : s = t := by
  have hread := h (List Nat) (fun words word => words ++ [word]) []
  have hkeep : ∀ words : List Nat, words.foldl (fun words word => words ++ [word]) [] = words := by
    intro words
    rw [List.foldl_append_eq_append, ← List.flatMap_def, List.flatMap_singleton', List.nil_append]
  rw [hashInto_eq, hashInto_eq, hkeep, hkeep] at hread
  exact eq_of_ranges (readings_inj hread)

end OrdinalSet
end ClusterPlan
