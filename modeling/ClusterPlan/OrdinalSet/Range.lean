/-!
Closed ranges of ordinals, the numbers that resources have inside one catalog. A range is never
empty. `Range.without` takes one range out of another, `Range.clip?` keeps what two have in common.
-/

namespace ClusterPlan

structure Range where
  lo : Nat
  hi : Nat
  lo_le_hi : lo ≤ hi := by omega
  deriving DecidableEq, Repr

namespace Range

instance : Membership Nat Range := ⟨fun r o => r.lo ≤ o ∧ o ≤ r.hi⟩

theorem mem_def {r : Range} {o : Nat} : o ∈ r ↔ r.lo ≤ o ∧ o ≤ r.hi := Iff.rfl

instance (r : Range) (o : Nat) : Decidable (o ∈ r) :=
  inferInstanceAs (Decidable (r.lo ≤ o ∧ o ≤ r.hi))

def ofBounds? (lo hi : Nat) : Option Range :=
  if h : lo ≤ hi then some ⟨lo, hi, h⟩ else none

def single (o : Nat) : Range := ⟨o, o, Nat.le_refl o⟩

def size (r : Range) : Nat := r.hi + 1 - r.lo

def toList (r : Range) : List Nat := List.range' r.lo r.size

/-- At least one ordinal lies between `r` and the later range `s`. -/
def Before (r s : Range) : Prop := r.hi + 1 < s.lo

instance (r s : Range) : Decidable (r.Before s) := inferInstanceAs (Decidable (_ < _))

def hull (r s : Range) : Range :=
  ⟨min r.lo s.lo, max r.hi s.hi, by have := r.lo_le_hi; omega⟩

def clip? (r s : Range) : Option Range := ofBounds? (max r.lo s.lo) (min r.hi s.hi)

def Within (r s : Range) : Prop := s.lo ≤ r.lo ∧ r.hi ≤ s.hi

instance (r s : Range) : Decidable (r.Within s) := inferInstanceAs (Decidable (_ ∧ _))

/-- What is left of `r` below and above `s`. -/
def without (r s : Range) : List Range :=
  if r.hi < s.lo ∨ s.hi < r.lo then [r]
  else (if h : r.lo < s.lo then [⟨r.lo, s.lo - 1, by omega⟩] else []) ++
    (if h : s.hi < r.hi then [⟨s.hi + 1, r.hi, by omega⟩] else [])

/-- The first `n` ordinals from the lower end on, for a positive `n` below the size. -/
def front (r : Range) (n : Nat) : Range := ⟨r.lo, r.lo + (n - 1), by omega⟩

/-- One number for a range of one ordinal, `lo-hi` for any other. -/
def text (r : Range) : String := if r.lo = r.hi then s!"{r.lo}" else s!"{r.lo}-{r.hi}"

theorem mem_single {o p : Nat} : p ∈ single o ↔ p = o := by
  simp only [mem_def, single]; omega

theorem mem_toList {r : Range} {o : Nat} : o ∈ r.toList ↔ o ∈ r := by
  have := r.lo_le_hi
  simp only [toList, size, List.mem_range'_1, mem_def]; omega

theorem mem_hull {r s : Range} (h : ¬ r.Before s) (h' : ¬ s.Before r) {o : Nat} :
    o ∈ r.hull s ↔ o ∈ r ∨ o ∈ s := by
  have := r.lo_le_hi
  have := s.lo_le_hi
  simp only [Before] at h h'
  simp only [mem_def, hull]; omega

theorem mem_ofBounds? {lo hi o : Nat} : (∃ r ∈ ofBounds? lo hi, o ∈ r) ↔ lo ≤ o ∧ o ≤ hi := by
  simp only [ofBounds?, mem_def]
  split
  · simp
  · simp
    omega

theorem mem_clip? {r s : Range} {o : Nat} : (∃ c ∈ r.clip? s, o ∈ c) ↔ o ∈ r ∧ o ∈ s := by
  simp only [clip?, ofBounds?, mem_def]
  split <;> simp <;> omega

theorem mem_without {r s : Range} {o : Nat} :
    (∃ c ∈ r.without s, o ∈ c) ↔ o ∈ r ∧ o ∉ s := by
  have := r.lo_le_hi
  have := s.lo_le_hi
  simp only [without]
  split
  · simp only [List.mem_singleton, exists_eq_left, mem_def]; omega
  · simp only [List.mem_append, mem_def]
    split <;> split <;> simp <;> omega

end Range
end ClusterPlan
