import ClusterPlan.Number
import ClusterPlan.OrdinalSet.Range

/-!
Sets of ordinals, kept as ascending ranges with a gap between any two of them. The form is
canonical, so equal members make equal sets (`ext_mem`). Each operation has one lemma on its
members; `smallest?` cuts off the least members of a set.
-/

namespace ClusterPlan

structure OrdinalSet where
  ranges : List Range
  apart : ranges.Pairwise Range.Before
  deriving DecidableEq

namespace OrdinalSet

instance : Membership Nat OrdinalSet := ⟨fun s o => ∃ r ∈ s.ranges, o ∈ r⟩

theorem mem_def {s : OrdinalSet} {o : Nat} : o ∈ s ↔ ∃ r ∈ s.ranges, o ∈ r := Iff.rfl

instance (s : OrdinalSet) (o : Nat) : Decidable (o ∈ s) :=
  inferInstanceAs (Decidable (∃ r ∈ s.ranges, o ∈ r))

def empty : OrdinalSet := ⟨[], .nil⟩

instance : EmptyCollection OrdinalSet := ⟨empty⟩
instance : Inhabited OrdinalSet := ⟨empty⟩

def isEmpty (s : OrdinalSet) : Bool := s.ranges.isEmpty

/-- Adds a range to an ascending list, fusing it with what it overlaps or touches. -/
def insertRange (r : Range) : List Range → List Range
  | [] => [r]
  | s :: rest =>
      if r.Before s then r :: s :: rest
      else if s.Before r then s :: insertRange r rest
      else insertRange (r.hull s) rest

theorem mem_insertRange (r : Range) (l : List Range) (o : Nat) :
    (∃ s ∈ insertRange r l, o ∈ s) ↔ o ∈ r ∨ ∃ s ∈ l, o ∈ s := by
  induction l generalizing r with
  | nil => simp [insertRange]
  | cons s rest ih =>
      simp only [insertRange]
      split
      · simp
      · split
        · simp only [List.mem_cons, exists_eq_or_imp, ih]
          exact or_left_comm
        · rename_i h h'
          rw [ih, Range.mem_hull h h']
          simp only [List.mem_cons, exists_eq_or_imp, or_assoc]

theorem before_insertRange {q r : Range} {l : List Range} (hr : q.Before r)
    (hl : ∀ s ∈ l, q.Before s) : ∀ s ∈ insertRange r l, q.Before s := by
  induction l generalizing r with
  | nil => simpa [insertRange] using hr
  | cons s rest ih =>
      have hs := hl s (by simp)
      have hrest : ∀ t ∈ rest, q.Before t := fun t ht => hl t (by simp [ht])
      simp only [insertRange]
      split
      · intro t ht
        rcases List.mem_cons.1 ht with rfl | ht
        · exact hr
        · exact hl t ht
      · split
        · intro t ht
          rcases List.mem_cons.1 ht with rfl | ht
          · exact hs
          · exact ih hr hrest t ht
        · refine ih ?_ hrest
          simp only [Range.Before, Range.hull] at hr hs ⊢
          omega

theorem apart_insertRange (r : Range) {l : List Range} (h : l.Pairwise Range.Before) :
    (insertRange r l).Pairwise Range.Before := by
  induction l generalizing r with
  | nil => simp [insertRange]
  | cons s rest ih =>
      have hs := (List.pairwise_cons.1 h).1
      have hrest := (List.pairwise_cons.1 h).2
      simp only [insertRange]
      split
      · rename_i hrs
        refine List.pairwise_cons.2 ⟨?_, h⟩
        intro t ht
        rcases List.mem_cons.1 ht with rfl | ht
        · exact hrs
        · have := hs t ht
          have := s.lo_le_hi
          simp only [Range.Before] at *
          omega
      · split
        · rename_i hsr
          exact List.pairwise_cons.2 ⟨before_insertRange hsr hs, ih r hrest⟩
        · exact ih _ hrest

def insert (r : Range) (s : OrdinalSet) : OrdinalSet :=
  ⟨insertRange r s.ranges, apart_insertRange r s.apart⟩

/-- The set covered by ranges in any order, overlapping or not. -/
def ofRanges (l : List Range) : OrdinalSet := l.foldr insert ∅

def ofIds (ids : List Nat) : OrdinalSet := ofRanges (ids.map Range.single)

def ofBounds (lo hi : Nat) : OrdinalSet := ofRanges (Range.ofBounds? lo hi).toList

/-- The set covered by pairs of bounds in any order. Bounds the wrong way round cover nothing. -/
def ofPairs (bounds : List (Nat × Nat)) : OrdinalSet :=
  ofRanges (bounds.filterMap fun b => Range.ofBounds? b.1 b.2)

def single (o : Nat) : OrdinalSet := ofIds [o]

def union (a b : OrdinalSet) : OrdinalSet := a.ranges.foldr insert b

def inter (a b : OrdinalSet) : OrdinalSet :=
  ofRanges (a.ranges.flatMap fun r => b.ranges.filterMap r.clip?)

/-- Takes each range of the second list out of all ranges of the first. -/
def carve : List Range → List Range → List Range
  | l, [] => l
  | l, s :: rest => carve (l.flatMap (·.without s)) rest

def diff (a b : OrdinalSet) : OrdinalSet := ofRanges (carve a.ranges b.ranges)

instance : Union OrdinalSet := ⟨union⟩
instance : Inter OrdinalSet := ⟨inter⟩
instance : SDiff OrdinalSet := ⟨diff⟩

/-- Every range of `a` lies in one range of `b`. -/
def subset (a b : OrdinalSet) : Bool :=
  a.ranges.all fun r => b.ranges.any fun s => decide (r.Within s)

def card (s : OrdinalSet) : Nat := Number.total (s.ranges.map Range.size)

def min? (s : OrdinalSet) : Option Nat := s.ranges.head?.map Range.lo

def toList (s : OrdinalSet) : List Nat := s.ranges.flatMap Range.toList

/-- The ranges that hold the first `n` ordinals, the last of them cut short. -/
def frontRanges : List Range → Nat → List Range
  | [], _ => []
  | r :: rest, n =>
      if n = 0 then []
      else if n < r.size then [r.front n]
      else r :: frontRanges rest (n - r.size)

/-- The `n` smallest members, if there are as many. -/
def smallest? (s : OrdinalSet) (n : Nat) : Option OrdinalSet :=
  if s.card < n then none else some (ofRanges (frontRanges s.ranges n))

def unionAll (sets : List OrdinalSet) : OrdinalSet := sets.foldl union ∅

/-- Ranges in ascending order, as in `[0-3, 7, 9-10]`. -/
def text (s : OrdinalSet) : String := "[" ++ ", ".intercalate (s.ranges.map Range.text) ++ "]"

def describe (s : OrdinalSet) : String := "IntervalSet" ++ s.text

/-- Writes the bounds of all ranges, in order, into the state of a hash function. -/
def hashInto {σ : Type u} (write : σ → Nat → σ) (state : σ) (s : OrdinalSet) : σ :=
  s.ranges.foldl (fun state r => write (write state r.lo) r.hi) state

@[simp] theorem not_mem_empty (o : Nat) : o ∉ (∅ : OrdinalSet) := by
  rintro ⟨r, hr, _⟩
  cases hr

@[simp] theorem mem_insert {r : Range} {s : OrdinalSet} {o : Nat} :
    o ∈ s.insert r ↔ o ∈ r ∨ o ∈ s :=
  mem_insertRange r s.ranges o

theorem mem_foldr_insert {l : List Range} {s : OrdinalSet} {o : Nat} :
    o ∈ l.foldr insert s ↔ (∃ r ∈ l, o ∈ r) ∨ o ∈ s := by
  induction l with
  | nil => simp
  | cons r rest ih => simp [ih, or_assoc]

theorem mem_ofRanges {l : List Range} {o : Nat} : o ∈ ofRanges l ↔ ∃ r ∈ l, o ∈ r := by
  simp [ofRanges, mem_foldr_insert]

@[simp] theorem mem_ofIds {ids : List Nat} {o : Nat} : o ∈ ofIds ids ↔ o ∈ ids := by
  simp only [ofIds, mem_ofRanges, List.mem_map]
  constructor
  · rintro ⟨_, ⟨p, hp, rfl⟩, ho⟩
    exact Range.mem_single.1 ho ▸ hp
  · exact fun h => ⟨_, ⟨o, h, rfl⟩, Range.mem_single.2 rfl⟩

@[simp] theorem mem_ofPairs {bounds : List (Nat × Nat)} {o : Nat} :
    o ∈ ofPairs bounds ↔ ∃ b ∈ bounds, b.1 ≤ o ∧ o ≤ b.2 := by
  simp only [ofPairs, mem_ofRanges, List.mem_filterMap]
  constructor
  · rintro ⟨r, ⟨b, hb, hr⟩, ho⟩
    exact ⟨b, hb, Range.mem_ofBounds?.1 ⟨r, hr, ho⟩⟩
  · rintro ⟨b, hb, ho⟩
    obtain ⟨r, hr, hmem⟩ := Range.mem_ofBounds?.2 ho
    exact ⟨r, ⟨b, hb, hr⟩, hmem⟩

@[simp] theorem mem_union {a b : OrdinalSet} {o : Nat} : o ∈ a ∪ b ↔ o ∈ a ∨ o ∈ b :=
  mem_foldr_insert

@[simp] theorem mem_inter {a b : OrdinalSet} {o : Nat} : o ∈ a ∩ b ↔ o ∈ a ∧ o ∈ b := by
  refine mem_ofRanges.trans ?_
  simp only [List.mem_flatMap, List.mem_filterMap, mem_def]
  constructor
  · rintro ⟨c, ⟨r, hr, s, hs, hc⟩, ho⟩
    have h := Range.mem_clip?.1 ⟨c, hc, ho⟩
    exact ⟨⟨r, hr, h.1⟩, ⟨s, hs, h.2⟩⟩
  · rintro ⟨⟨r, hr, hor⟩, ⟨s, hs, hos⟩⟩
    obtain ⟨c, hc, ho⟩ := Range.mem_clip?.2 ⟨hor, hos⟩
    exact ⟨c, ⟨r, hr, s, hs, hc⟩, ho⟩

theorem mem_carve {l m : List Range} {o : Nat} :
    (∃ r ∈ carve l m, o ∈ r) ↔ (∃ r ∈ l, o ∈ r) ∧ ¬ ∃ s ∈ m, o ∈ s := by
  induction m generalizing l with
  | nil => simp [carve]
  | cons s rest ih =>
      rw [carve, ih]
      simp only [List.mem_flatMap, List.mem_cons, exists_eq_or_imp, not_or]
      constructor
      · rintro ⟨⟨c, ⟨r, hr, hc⟩, ho⟩, hrest⟩
        have h := Range.mem_without.1 ⟨c, hc, ho⟩
        exact ⟨⟨r, hr, h.1⟩, h.2, hrest⟩
      · rintro ⟨⟨r, hr, ho⟩, hs, hrest⟩
        obtain ⟨c, hc, ho⟩ := Range.mem_without.2 ⟨ho, hs⟩
        exact ⟨⟨c, ⟨r, hr, hc⟩, ho⟩, hrest⟩

@[simp] theorem mem_sdiff {a b : OrdinalSet} {o : Nat} : o ∈ a \ b ↔ o ∈ a ∧ o ∉ b :=
  mem_ofRanges.trans mem_carve

end OrdinalSet
end ClusterPlan
